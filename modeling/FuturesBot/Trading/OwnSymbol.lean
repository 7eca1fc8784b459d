import FuturesBot.Trading.Averaging
import FuturesBot.Trading.FailClosed

namespace FuturesBot
open Lib CycleRunner

theorem estimateForDecision_symbol (h : estimateForDecision book d margin leverage impact = .ok e) :
    book.symbol = d.symbol := by
  unfold estimateForDecision at h
  split at h
  · cases h
  split at h
  · cases h
  · rename_i hsymbol
    exact not_not.mp hsymbol

namespace ExecutionEngine

/-- A plan that sends an order has been admitted. -/
theorem sentOrder_admitted (h : sentOrder A d r estimate st = some (atr1h, request, x)) :
    d.entryType ≠ .noEntry := by
  unfold sentOrder at h
  split at h
  · cases h
  split at h
  · cases h
  · rename_i hplan
    exact (admitPlan_ok hplan).2.1

end ExecutionEngine

namespace CycleRunner

/-- What an estimable decision is asked about has the symbol of the snapshot: the estimate is
refused for any other. -/
theorem proposedSlippage_symbol (he : isEstimable d)
    (h : proposedSlippage config snapshot d = .ok slippage) : d.symbol = snapshot.symbol := by
  unfold proposedSlippage at h
  rw [if_pos he] at h
  rcases hs : preTradeSlippage config snapshot d d.marginUsdt d.leverage with e | estimate
  · rw [hs] at h
    cases h
  · exact (estimateForDecision_symbol hs).symm

/-- The gates have been asked about this symbol: its book, its fees, its position, its funding
rate and its last trade. -/
structure AskedAbout (A : ExchangeAdapter σ) (config : AppConfig) (snapshot : MarketSnapshot)
    (st : PipelineState σ) (symbol : Symbol) (d : ModelDecision) (ctx : RiskContext) : Prop where
  book : snapshot.symbol = symbol
  slippage : proposedSlippage config snapshot d = .ok ctx.slippageEstimate
  reads : ∃ x position x', proposedFees A symbol d st.exchange = (.ok ctx.feeEstimate, x) ∧
    A.getPosition symbol x = (.ok position, x') ∧
    ctx.openPositionUnrealizedPnlUsdt = position.map (·.unrealizedPnl)
  funding : ctx.fundingRate = snapshot.fundingRate
  lastTrade : ctx.lastTradePnlUsdt =
      (st.session.working.getLastClosedTrade symbol).bind (·.netPnl) ∧
    ctx.lastTradeMarginUsdt = (st.session.working.getLastClosedTrade symbol).map (·.marginUsdt)

/-- An order is sent for the symbol of the snapshot only, and after clear gates about it. -/
theorem turnOrder_symbol (h : turnOrder A config o reliable snapshot st = some (request, y)) :
    ∃ d ctx r, AskedAbout A config snapshot st request.symbol d ctx ∧
      validate d ctx config = .ok r ∧ r.decision.executable := by
  obtain ⟨d, action, r, slippage, x, -, -, hassess, hx, henter⟩ := turnOrder_iff.mp h
  obtain ⟨approved, estimate, atr1h, -, -, hsent⟩ := enterOrder_iff.mp henter
  obtain ⟨fees, x₁, position, hslippage, hfees, hposition, hvalid⟩ := assess_ok_iff.mp hassess
  have hentry : d.entryType ≠ .noEntry := ExecutionEngine.sentOrder_admitted hsent
  have hestimable : isEstimable d := by
    simp [isEstimable, (validate_executable hvalid hx).1, hentry]
  have hsymbol : snapshot.symbol = request.symbol := by
    rw [(ExecutionEngine.sentOrder_entry hsent).2]
    exact (proposedSlippage_symbol hestimable hslippage).symm
  have htables := auditDecision_tables config d action st.session
  rw [htables.1.riskContext] at hvalid
  refine ⟨d, _, r, ⟨hsymbol, hslippage, ⟨x₁, position, x, ?_, ?_, rfl⟩, rfl, ?_⟩, hvalid, hx⟩
  · rw [← hsymbol]
    exact hfees
  · rw [← hsymbol]
    exact hposition
  · rw [← hsymbol]
    exact ⟨rfl, rfl⟩

/-- Orders have been sent, and the entries among them for these symbols only. -/
def EntersFor (allowed : Symbol → Prop) (x x' : σ × List OrderRequest) : Prop :=
  ∃ orders, x'.2 = x.2 ++ orders ∧
    ∀ request ∈ orders, request.isReduceOnly = false → allowed request.symbol

namespace EntersFor

variable {allowed : Symbol → Prop}

theorem of_same {x x' : σ × List OrderRequest} (h : x'.2 = x.2) : EntersFor allowed x x' :=
  ⟨[], by simpa using h, by simp⟩

theorem trans {x y z : σ × List OrderRequest} (h : EntersFor allowed x y)
    (h' : EntersFor allowed y z) : EntersFor allowed x z := by
  obtain ⟨orders, hy, ho⟩ := h
  obtain ⟨orders', hz, ho'⟩ := h'
  refine ⟨orders ++ orders', by rw [hz, hy, List.append_assoc], ?_⟩
  intro request hm
  rcases List.mem_append.mp hm with hm | hm
  · exact ho request hm
  · exact ho' request hm

theorem mono {other : Symbol → Prop} {x x' : σ × List OrderRequest} (h : EntersFor allowed x x')
    (hle : ∀ s, allowed s → other s) : EntersFor other x x' := by
  obtain ⟨orders, hx, ho⟩ := h
  exact ⟨orders, hx, fun request hm hr => hle _ (ho request hm hr)⟩

theorem of_onlyReduces {x x' : σ × List OrderRequest} (h : OnlyReduces x x') :
    EntersFor allowed x x' := by
  obtain ⟨closes, hx, hc⟩ := h
  refine ⟨closes, hx, ?_⟩
  intro request hm hr
  rw [hc request hm] at hr
  cases hr

end EntersFor

/-- A symbol that the gates have let an entry through for, in the turn of a snapshot. -/
def LetThrough (A : ExchangeAdapter σ) (config : AppConfig) (snapshot : MarketSnapshot)
    (st : PipelineState σ) (symbol : Symbol) : Prop :=
  ∃ d ctx r, AskedAbout A config snapshot st symbol d ctx ∧ validate d ctx config = .ok r ∧
    r.decision.executable

theorem processNested_entersFor (A : ExchangeAdapter σ) (config : AppConfig) (o : DecisionSources)
    (reliable : Bool) (snapshot : MarketSnapshot) (st : PipelineState (σ × List OrderRequest)) :
    EntersFor (fun s => s = snapshot.symbol ∧ LetThrough A.logged config snapshot st s) st.exchange
      (processNested A.logged config o reliable snapshot st).exchange := by
  have hsent : Sent A.logged (·.2) (turnOrder A.logged config o reliable snapshot st) st.exchange
      (processNested A.logged config o reliable snapshot st).exchange :=
    processNested_sent (Untouched.logged A)
  rcases hturn : turnOrder A.logged config o reliable snapshot st with _ | ⟨request, y⟩
  · rw [hturn] at hsent
    exact .of_same hsent
  · rw [hturn] at hsent
    obtain ⟨hy, -, hx⟩ := hsent
    have hlog : y.2 = st.exchange.2 := hy
    obtain ⟨d, ctx, r, hasked, hvalid, hexec⟩ := turnOrder_symbol hturn
    refine ⟨[request], ?_, ?_⟩
    · rw [hx, ← hlog]
      rfl
    · intro request' hm _
      rw [List.mem_singleton.mp hm]
      exact ⟨hasked.book.symm, d, ctx, r, hasked, hvalid, hexec⟩

/-- The symbols of a tick, one after the other. One that is not verified is passed over. -/
theorem runDecisionPipeline_entersFor (A : ExchangeAdapter σ) (config : AppConfig)
    (i : TickInputs) (unverified : List Symbol) (reliable : Bool) (snapshots : List MarketSnapshot)
    (w : Worker (σ × List OrderRequest)) (opened : ℤ) :
    EntersFor (· ∉ unverified) w.exchange (runDecisionPipeline A.logged config i unverified reliable
      snapshots (w, opened)).1.exchange := by
  induction snapshots generalizing w opened with
  | nil => exact .of_same rfl
  | cons snapshot rest ih =>
    rw [runDecisionPipeline]
    dsimp only
    split
    · exact .of_same rfl
    split
    · exact ih _ _
    split
    · exact ih _ _
    · rename_i hverified
      have hturn : ∀ st : PipelineState (σ × List OrderRequest),
          EntersFor (· ∉ unverified) st.exchange
            (processNested A.logged config i.sources reliable snapshot st).exchange := by
        intro st
        apply (processNested_entersFor A config i.sources reliable snapshot st).mono
        intro s hs
        rw [hs.1]
        exact hverified
      refine EntersFor.trans ?_ (ih _ _)
      exact hturn _

/-- Every entry of a turn is for the symbol of its snapshot, which the gates were asked about,
and no entry of a tick is for a symbol that its reconciliation could not verify. -/
theorem entries_on_their_symbol (A : ExchangeAdapter σ) (config : AppConfig) (wiring : Wiring)
    (i : TickInputs) :
    (∀ o reliable snapshot st,
      EntersFor (fun s => s = snapshot.symbol ∧ LetThrough A.logged config snapshot st s)
        st.exchange (processNested A.logged config o reliable snapshot st).exchange) ∧
    ∀ w, EntersFor
      (fun s => ∀ report ∈ tickReport A.logged config wiring i w, s ∉ report.failedSymbols)
      w.exchange (tick A.logged config wiring i w).2.exchange := by
  refine ⟨processNested_entersFor A config, ?_⟩
  intro w
  rcases tick_upToPipeline A config wiring i w with ⟨-, hreduces⟩ | ⟨snapshots, w', hbefore, htick⟩
  · exact .of_onlyReduces hreduces
  · rw [htick]
    refine EntersFor.trans (.of_onlyReduces hbefore) ?_
    generalize tickReport A.logged config wiring i w = report
    unfold pipelineStage
    split
    · have hrun := runDecisionPipeline_entersFor A config i
        ((report.map (·.failedSymbols)).getD []) ((report.map (·.isComplete)).getD true) snapshots
        (calling .decisionPipeline w') 0
      apply hrun.mono
      intro s hs made hmade
      rw [Option.mem_def.mp hmade] at hs
      exact hs
    · exact .of_same rfl

end CycleRunner

end FuturesBot
