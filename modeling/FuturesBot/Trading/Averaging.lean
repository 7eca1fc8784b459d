import FuturesBot.Exchange.Conservation
import FuturesBot.Trading.LossLimits

namespace FuturesBot
open Lib CycleRunner

namespace PaperAdapter

/-- No position has ever been marked to the market. -/
def Unmarked (a : PaperAdapter) : Prop :=
  ∀ s p, a.positions.get s = some p → p.unrealizedPnl = 0

theorem Unmarked.set (h : Unmarked a) (hp : p.unrealizedPnl = 0) (balance : Amount) :
    Unmarked { a with balanceUsdt := balance, positions := a.positions.set symbol p } := by
  intro s q hq
  rw [Dict.get_set] at hq
  split at hq
  · cases hq
    exact hp
  · exact h s q hq

theorem Unmarked.pop (h : Unmarked a) (balance : Amount) (symbol : Symbol) :
    Unmarked { a with balanceUsdt := balance, positions := a.positions.pop symbol } := by
  intro s q hq
  rw [Dict.get_pop] at hq
  split at hq
  · cases hq
  · exact h s q hq

theorem Unmarked.closeOrReducePosition (hu : Unmarked a)
    (h : closeOrReducePosition symbol quantity price a = (r, a')) : Unmarked a' := by
  unfold PaperAdapter.closeOrReducePosition at h
  split at h
  · cases h
    exact hu
  · dsimp only at h
    split at h
    · cases h
      exact hu.pop _ _
    · split at h
      · cases h
        exact hu
      · rename_i p hb
        have hf := PositionState.build_ok hb
        cases h
        exact hu.set (congrArg (·.unrealizedPnl) hf) _

theorem Unmarked.openOrNetPosition (hu : Unmarked a)
    (h : openOrNetPosition req price a = (r, a')) : Unmarked a' := by
  unfold PaperAdapter.openOrNetPosition at h
  dsimp only at h
  split at h
  · cases h
    exact hu
  · rename_i p hb
    have hf := PositionState.build_ok hb
    have hzero : p.unrealizedPnl = 0 := by
      rw [congrArg (·.unrealizedPnl) hf]
      split
      · rfl
      · split <;> rfl
    cases h
    exact hu.set hzero a.balanceUsdt

/-- An order opens, nets and reduces positions without ever marking one. -/
theorem Unmarked.placeOrder (hu : Unmarked a) (req : OrderRequest) :
    Unmarked (placeOrder req a).2 := by
  have hfill : Unmarked (fillMarketOrder req a).2 := by
    unfold fillMarketOrder
    split
    · exact hu
    · split
      · exact hu
      · have hcharged : ∀ fee, Unmarked { a with balanceUsdt := a.balanceUsdt - fee } := fun _ => hu
        dsimp only
        split
        all_goals
          rename_i hm
          split at hm
          · exact (hcharged _).closeOrReducePosition hm
          · exact (hcharged _).openOrNetPosition hm
  unfold PaperAdapter.placeOrder
  split
  · exact hu
  · dsimp only
    have hm : Unmarked (if req.orderType = .market then fillMarketOrder req a
        else registerPendingOrder req a).2 := by
      split
      · exact hfill
      · exact hu
    split
    all_goals
      rename_i h
      rw [h] at hm
      exact hm

theorem booked_unmarked : ExitsStayIn booked (fun x x' => Unmarked x.1 → Unmarked x'.1) where
  refl _ h := h
  trans _ _ _ h h' hu := h' (h hu)
  getPosition _ _ h := h
  reduceOnly request _ _ _ h := h.placeOrder request

end PaperAdapter

open PaperAdapter

/-- A turn of the pipeline never marks a position either. -/
theorem processNested_unmarked {st : PipelineState BookedPaper} (hu : Unmarked st.exchange.1) :
    Unmarked (processNested booked config o reliable snapshot st).exchange.1 := by
  have hcongr : ∀ a : PaperAdapter, a.positions = st.exchange.1.positions → Unmarked a := by
    intro a ha s p hp
    rw [ha] at hp
    exact hu s p hp
  have hs : Sent booked (fun x => x.1.positions)
      (turnOrder booked config o reliable snapshot st) st.exchange
      (processNested booked config o reliable snapshot st).exchange :=
    processNested_sent (booked_untouched.map (fun x => x.1.positions))
  rcases ht : turnOrder booked config o reliable snapshot st with _ | ⟨request, y⟩
  · rw [ht] at hs
    exact hcongr _ hs
  · rw [ht] at hs
    obtain ⟨hy, _, hx⟩ := hs
    rw [hx, booked_placeOrder]
    exact (hcongr y.1 hy).placeOrder request

theorem PaperStep.unmarked (h : PaperStep config st e st') (hu : Unmarked st.exchange.1) :
    Unmarked st'.exchange.1 := by
  cases h with
  | clock now h => exact hu
  | nextTick | registered m | stored s h => exact hu
  | exit h => exact booked_unmarked.tickSymbol h hu
  | invalidation h => exact booked_unmarked.triggerSetupInvalidation h hu
  | turn o reliable snapshot => exact processNested_unmarked hu

/-- The open position of a symbol has lost at its last price. -/
def Losing (lastPrice : Symbol → Option Amount) (a : PaperAdapter) (symbol : Symbol) : Prop :=
  ∃ p price, a.positions.get symbol = some p ∧ lastPrice symbol = some price ∧
    openWorth (fun _ => price) symbol p < 0

/-- A turn of the pipeline at the last prices of its tick, or any other step of a run. -/
inductive PricedEvent
  | other
  | turn (o : DecisionSources) (reliable : Bool) (snapshot : MarketSnapshot)
      (lastPrice : Symbol → Option Amount)

/-- The steps of a run, each with the state it starts from. -/
inductive PricedStep (config : AppConfig) : PipelineState BookedPaper →
    PipelineState BookedPaper × PricedEvent → PipelineState BookedPaper → Prop
  | other {st st' : PipelineState BookedPaper} (h : PaperStep config st .silent st') :
      PricedStep config st (st, .other) st'
  | turn {st : PipelineState BookedPaper} {o : DecisionSources} {reliable : Bool}
      {snapshot : MarketSnapshot} {lastPrice : Symbol → Option Amount}
      (h : lastPrice snapshot.symbol = some snapshot.lastPrice) :
      PricedStep config st (st, .turn o reliable snapshot lastPrice)
        (processNested booked config o reliable snapshot st)

/-- The turn sends an entry for a symbol whose open position is losing. -/
def AveragesDown (config : AppConfig) : PipelineState BookedPaper × PricedEvent → Prop
  | (_, .other) => False
  | (st, .turn o reliable snapshot lastPrice) =>
    ∃ time request, (processNested booked config o reliable snapshot st).exchange.2 =
      st.exchange.2 ++ [.entry time request] ∧ Losing lastPrice st.exchange.1 request.symbol

/-- Nothing but the gate on averaging stands between a decision and its order. -/
def Unhindered (A : ExchangeAdapter σ) (config : AppConfig) (reliable : Bool)
    (snapshot : MarketSnapshot) (d : ModelDecision) (st : PipelineState σ) : Prop :=
  ∃ slippage fees x r approved estimate, proposedSlippage config snapshot d = .ok slippage ∧
    proposedFees A snapshot.symbol d st.exchange = (.ok fees, x) ∧
    validate d (riskContext st.session.working st.session.now snapshot
      (if reliable then some (snapshot.openPositionsCount + st.openedThisTick) else none)
      none fees slippage) config = .ok r ∧
    r.decision.executable ∧ r.adjustedParameters = some approved ∧
    executedEstimate config snapshot d approved slippage = .ok estimate ∧
    (ExecutionEngine.sentOrder A d r estimate st.toTradingState).isSome

/-- A decision to enter a symbol whose open position is losing, which only the gate on
averaging could stop. -/
def LosingProposal (config : AppConfig) : PipelineState BookedPaper × PricedEvent → Prop
  | (_, .other) => False
  | (st, .turn o reliable snapshot lastPrice) =>
    ∃ d action, askModel o snapshot = .ok (some (d, action)) ∧ action ≠ .noOperar ∧
      Losing lastPrice st.exchange.1 d.symbol ∧ Unhindered booked config reliable snapshot d st

/-- The tables that a turn reads are the same. -/
structure SameTables (db db' : Database) : Prop where
  orders : db'.orders = db.orders
  ordersOfOtherRuns : db'.ordersOfOtherRuns = db.ordersOfOtherRuns
  trades : db'.trades = db.trades
  volatilityAssessments : db'.volatilityAssessments = db.volatilityAssessments

theorem auditDecision_tables (config : AppConfig) (d : ModelDecision) (action : DecisionType)
    (s : Session) : SameTables s.working (auditDecision config d action s).working ∧
      (auditDecision config d action s).now = s.now := by
  unfold auditDecision Session.auditModelDecision
  split
  · split <;> exact ⟨⟨rfl, rfl, rfl, rfl⟩, rfl⟩
  · exact ⟨⟨rfl, rfl, rfl, rfl⟩, rfl⟩

theorem auditValidation_tables (config : AppConfig) (r : RiskValidationResult) (s : Session) :
    SameTables s.working (auditValidation config r s).working := by
  unfold auditValidation
  split <;> exact ⟨rfl, rfl, rfl, rfl⟩

theorem SameTables.trans (h : SameTables db db') (h' : SameTables db' db'') :
    SameTables db db'' :=
  ⟨h'.orders.trans h.orders, h'.ordersOfOtherRuns.trans h.ordersOfOtherRuns,
    h'.trades.trans h.trades, h'.volatilityAssessments.trans h.volatilityAssessments⟩

theorem SameTables.riskContext (h : SameTables db db') (now : Timestamp) (snapshot : MarketSnapshot)
    (count : Option ℤ) (pnl : Option Amount) (fees : Option FeeEstimate)
    (slippage : Option SlippageEstimate) :
    riskContext db' now snapshot count pnl fees slippage =
      riskContext db now snapshot count pnl fees slippage := by
  simp only [CycleRunner.riskContext, Database.getLossTotals, Database.lossOf,
    Database.getLastClosedTrade, Database.getLastClosedTradeAnySymbol, Database.lastClosed,
    h.trades]

/-- An order depends on the verdict through its parameters only, and not on the audit. -/
theorem sentOrder_congr (A : ExchangeAdapter σ) (d : ModelDecision)
    (estimate : Option SlippageEstimate) (st : TradingState σ) {s : Session}
    (ht : SameTables st.session.working s.working)
    (he : r'.decision.executable = r.decision.executable)
    (hp : r'.adjustedParameters = r.adjustedParameters) :
    ExecutionEngine.sentOrder A d r' estimate { st with session := s } =
      ExecutionEngine.sentOrder A d r estimate st := by
  simp only [ExecutionEngine.sentOrder, ExecutionEngine.admitPlan, Database.getByClientOrderId,
    Database.latestAtr, ht.orders, ht.ordersOfOtherRuns, ht.volatilityAssessments, he, hp]

/-- The verdict on parameters does not depend on a PnL that is not negative. -/
theorem validate_unaveraged {now : Timestamp} (h : ∀ pnl ∈ openPnl, 0 ≤ pnl) :
    (∃ r, validate d (riskContext db now snapshot count openPnl fees slippage) config = .ok r ∧
      r.decision.executable ∧ r.adjustedParameters = some p) ↔
    ∃ r, validate d (riskContext db now snapshot count none fees slippage) config = .ok r ∧
      r.decision.executable ∧ r.adjustedParameters = some p := by
  have hg : GatesClear .python d (riskContext db now snapshot count none fees slippage) config ↔
      GatesClear .python d (riskContext db now snapshot count openPnl fees slippage) config :=
    gatesClear_unaveraged d (riskContext db now snapshot count openPnl fees slippage) config h
  constructor
  · intro hex
    obtain ⟨r, hv, he, hp⟩ := hex
    obtain ⟨r', hv', he', hp'⟩ := validate_congr hg.mpr id hv he
    exact ⟨r', hv', he', hp'.trans hp⟩
  · intro hex
    obtain ⟨r, hv, he, hp⟩ := hex
    obtain ⟨r', hv', he', hp'⟩ := validate_congr hg.mp id hv he
    exact ⟨r', hv', he', hp'.trans hp⟩

/-- While nothing is marked, the gate on averaging lets every turn pass. -/
theorem turnOrder_unmarked {st : PipelineState BookedPaper} (hu : Unmarked st.exchange.1)
    (Q : Symbol → Prop) :
    (∃ request y, turnOrder booked config o reliable snapshot st = some (request, y) ∧
      Q request.symbol) ↔
    ∃ d action, askModel o snapshot = .ok (some (d, action)) ∧ action ≠ .noOperar ∧ Q d.symbol ∧
      Unhindered booked config reliable snapshot d st := by
  have hpnl : ∀ pnl ∈ (st.exchange.1.positions.get snapshot.symbol).map (·.unrealizedPnl),
      0 ≤ pnl := by
    intro pnl hm
    obtain ⟨p, hp, rfl⟩ := Option.map_eq_some_iff.mp hm
    exact (hu _ _ hp).ge
  constructor
  · intro h
    obtain ⟨request, y, hturn, hQ⟩ := h
    obtain ⟨d, action, r, slippage, x, ha, hn, hs, he, henter⟩ := turnOrder_iff.mp hturn
    obtain ⟨fees, x₁, position, hslip, hfees, hpos, hv⟩ := assess_ok_iff.mp hs
    obtain ⟨approved, estimate, atr1h, hadj, hest, hsent⟩ := enterOrder_iff.mp henter
    obtain ⟨htables, hnow⟩ := auditDecision_tables config d action st.session
    have hx₁ : x₁ = st.exchange := by
      have hview := proposedFees_view booked_reads snapshot.symbol d st.exchange
      rw [hfees] at hview
      exact hview
    obtain ⟨hheld, rfl⟩ : st.exchange.1.positions.get snapshot.symbol = position ∧
        st.exchange = x := by
      rw [hx₁] at hpos
      cases hpos
      exact ⟨rfl, rfl⟩
    rw [htables.riskContext, hnow, ← hheld] at hv
    obtain ⟨r', hv', he', hadj'⟩ := (validate_unaveraged hpnl).mp ⟨r, hv, he, hadj⟩
    refine ⟨d, action, ha, hn, ?_, slippage, fees, x₁, r', approved, estimate, hslip, hfees, hv',
      he', hadj', hest, ?_⟩
    · rw [← (ExecutionEngine.sentOrder_entry hsent).2]
      exact hQ
    · have hsame := sentOrder_congr booked d estimate st.toTradingState
        (htables.trans (auditValidation_tables config r _)) (he.trans he'.symm)
        (hadj.trans hadj'.symm)
      rw [← hsame]
      exact Option.isSome_iff_exists.mpr ⟨_, hsent⟩
  · rintro ⟨d, action, ha, hn, hQ, slippage, fees, x₁, r, approved, estimate, hslip, hfees, hv, he,
      hadj, hest, hsent⟩
    obtain ⟨⟨atr1h, request, y⟩, hsent⟩ := Option.isSome_iff_exists.mp hsent
    obtain ⟨htables, hnow⟩ := auditDecision_tables config d action st.session
    have hx₁ : x₁ = st.exchange := by
      have hview := proposedFees_view booked_reads snapshot.symbol d st.exchange
      rw [hfees] at hview
      exact hview
    obtain ⟨r', hv', he', hadj'⟩ := (validate_unaveraged hpnl).mpr ⟨r, hv, he, hadj⟩
    refine ⟨request, y, turnOrder_iff.mpr ⟨d, action, r', slippage, st.exchange, ha, hn, ?_, he',
      enterOrder_iff.mpr ⟨approved, estimate, atr1h, hadj', hest, ?_⟩⟩, ?_⟩
    · refine assess_ok_iff.mpr ⟨fees, x₁, st.exchange.1.positions.get snapshot.symbol, hslip, hfees,
        ?_, ?_⟩
      · rw [hx₁]
        rfl
      · rw [htables.riskContext, hnow]
        exact hv'
    · have hsame := sentOrder_congr booked d estimate st.toTradingState
        (htables.trans (auditValidation_tables config r' _)) (he'.trans he.symm)
        (hadj'.trans hadj.symm)
      exact hsame.trans hsent
    · rw [(ExecutionEngine.sentOrder_entry hsent).2]
      exact hQ

theorem averagesDown_turn : AveragesDown config (st, .turn o reliable snapshot lastPrice) ↔
    ∃ request y, turnOrder booked config o reliable snapshot st = some (request, y) ∧
      Losing lastPrice st.exchange.1 request.symbol := by
  have hs : Sent booked (fun x => x.2) (turnOrder booked config o reliable snapshot st)
      st.exchange (processNested booked config o reliable snapshot st).exchange :=
    processNested_sent (booked_untouched.map (fun x => x.2))
  unfold AveragesDown
  rcases ht : turnOrder booked config o reliable snapshot st with _ | ⟨request, y⟩
  · rw [ht] at hs
    have hbook : (processNested booked config o reliable snapshot st).exchange.2 =
        st.exchange.2 := hs
    simp [hbook]
  · rw [ht] at hs
    obtain ⟨hy, hr, hx⟩ := hs
    have hbook : (processNested booked config o reliable snapshot st).exchange.2 =
        st.exchange.2 ++ [.entry y.1.now request] := by
      rw [hx, booked_placeOrder, Movement.ofOrder, hr]
      exact congrArg (· ++ _) hy
    simp [hbook]

/-- A turn averages down exactly where only the gate on averaging could have stopped it. -/
theorem averagesDown_iff (hu : Unmarked t.1.exchange.1) :
    AveragesDown config t ↔ LosingProposal config t := by
  obtain ⟨st, e⟩ := t
  cases e with
  | other => exact .rfl
  | turn o reliable snapshot lastPrice =>
    exact averagesDown_turn.trans (turnOrder_unmarked hu (Losing lastPrice st.exchange.1))

theorem PricedStep.unmarked (h : PricedStep config st t st') (hu : Unmarked st.exchange.1) :
    t.1 = st ∧ Unmarked st'.exchange.1 := by
  cases h with
  | other h => exact ⟨rfl, h.unmarked hu⟩
  | turn h => exact ⟨rfl, processNested_unmarked hu⟩

/-- In a run of the simulation from its start the gate on averaging changes nothing: a
losing position is added to whenever everything else lets it. -/
theorem averages_down_iff (h₀ : Fresh st.exchange.1) (hr : Run (PricedStep config) st trace st') :
    (∀ t ∈ trace, ¬AveragesDown config t) ↔ ∀ t ∈ trace, ¬LosingProposal config t := by
  have hstart : Unmarked st.exchange.1 := by
    intro s p hp
    rw [h₀.2.1] at hp
    cases hp
  have hall : Unmarked st'.exchange.1 ∧ ∀ t ∈ trace, Unmarked t.1.exchange.1 := by
    refine hr.invariant_trace
      (I := fun trace st => Unmarked st.exchange.1 ∧ ∀ t ∈ trace, Unmarked t.1.exchange.1)
      ⟨hstart, by simp⟩ ?_
    rintro trace st t st' ⟨hu, htrace⟩ hs
    obtain ⟨ht, hu'⟩ := hs.unmarked hu
    refine ⟨hu', ?_⟩
    intro t' hm
    rcases List.mem_append.mp hm with hm | hm
    · exact htrace t' hm
    · rw [List.mem_singleton.mp hm, ht]
      exact hu
  constructor
  · intro h t hm hl
    exact h t hm ((averagesDown_iff (hall.2 t hm)).mpr hl)
  · intro h t hm ha
    exact h t hm ((averagesDown_iff (hall.2 t hm)).mp ha)

theorem pair_allowed : 1 ≤ (2 : ℤ) ∧ (2 : ℤ) ≤ defaultConfig.trading.maxOpenPositionsAllowed := by
  decide

/-- Two positions may be open at a time. -/
def pairConfig : AppConfig :=
  { defaultConfig with
    trading := { defaultConfig.trading with maxOpenPositions := 2, within_allowed := pair_allowed } }

/-- The market has lost three percent since the sample. -/
def fallenSnapshot : MarketSnapshot where
  symbol := "BTCUSDT"
  bid := 969 / 10
  ask := 971 / 10
  lastPrice := 97
  fundingRate := some 0
  accountBalanceUsdt := 1000
  openPositionsCount := 1
  activeOrdersCount := 0
  latencyMs := 0
  clockSkewMs := 0
  valid := by norm_num [MarketSnapshotFields.Valid, allowedSymbols]

def fallenPrice (s : Symbol) : Option Amount := if s = "BTCUSDT" then some 97 else none

def pairEntered : PipelineState BookedPaper :=
  processNested booked pairConfig (tenfoldSources "first") true sampleSnapshot freshRun

def pairNext : PipelineState BookedPaper := { pairEntered with openedThisTick := 0 }

def pairAgain : PipelineState BookedPaper × PricedEvent :=
  (pairNext, .turn (tenfoldSources "second") true fallenSnapshot fallenPrice)

def pairTrace : List (PipelineState BookedPaper × PricedEvent) :=
  [(freshRun, .turn (tenfoldSources "first") true sampleSnapshot (fun _ => some 100)),
    (pairEntered, .other), pairAgain]

theorem pair_run : ∃ st, Run (PricedStep pairConfig) freshRun pairTrace st := by
  have hfirst : PricedStep pairConfig freshRun
      (freshRun, .turn (tenfoldSources "first") true sampleSnapshot (fun _ => some 100))
      pairEntered := .turn rfl
  have hnext : PricedStep pairConfig pairEntered (pairEntered, .other) pairNext := .other .nextTick
  exact ⟨_, .snoc (.snoc (.snoc (.nil _) hfirst) hnext) (.turn rfl)⟩

theorem fresh_pair : Fresh freshRun.exchange.1 := ⟨rfl, rfl, rfl, rfl⟩

theorem pair_averages_iff : (∀ t ∈ pairTrace, ¬AveragesDown pairConfig t) ↔
    ∀ t ∈ pairTrace, ¬LosingProposal pairConfig t := by
  obtain ⟨st, hr⟩ := pair_run
  exact averages_down_iff fresh_pair hr

/-- The second entry goes out while the first has lost three percent. -/
theorem averages_down_in_paper :
    ¬∀ (config : AppConfig) (st st' : PipelineState BookedPaper)
      (trace : List (PipelineState BookedPaper × PricedEvent)),
      1 < config.trading.maxOpenPositions → Fresh st.exchange.1 →
      Run (PricedStep config) st trace st' → ∀ t ∈ trace, ¬AveragesDown config t := by
  intro h
  obtain ⟨st, hr⟩ := pair_run
  have htwo : 1 < pairConfig.trading.maxOpenPositions := by decide
  refine h pairConfig freshRun st pairTrace htwo fresh_pair hr pairAgain (by simp [pairTrace]) ?_
  have hsent : (turnOrder booked pairConfig (tenfoldSources "second") true fallenSnapshot
      pairNext).map (·.1.symbol) = some "BTCUSDT" := by decide +kernel
  have hlost : (pairNext.exchange.1.positions.get "BTCUSDT").any
      (fun p => openWorth (fun _ => 97) "BTCUSDT" p < 0) = true := by decide +kernel
  obtain ⟨⟨request, y⟩, hturn, hsymbol⟩ := Option.map_eq_some_iff.mp hsent
  obtain ⟨p, hp, hneg⟩ := (Option.any_eq_true _ _).mp hlost
  have hbtc : request.symbol = "BTCUSDT" := hsymbol
  refine averagesDown_turn.mpr ⟨request, y, hturn, p, 97, ?_, ?_, ?_⟩
  · rw [hbtc]
    exact hp
  · rw [hbtc]
    rfl
  · rw [hbtc]
    exact of_decide_eq_true hneg

end FuturesBot
