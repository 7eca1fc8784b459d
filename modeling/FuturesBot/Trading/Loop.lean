import FuturesBot.Trading.Cycle

namespace FuturesBot
open Lib CycleRunner PositionTickService

section Reads
variable {A : ExchangeAdapter σ} {view : σ → β}

namespace MarketDataCycleService

theorem countOver_view {read : Symbol → Call σ α} (hread : ∀ s x, view (read s x).2 = view x)
    (count : α → ℕ) (symbols : List Symbol) (x : σ) :
    view (countOver read count symbols x).2 = view x := by
  induction symbols generalizing x with
  | nil => rfl
  | cons s symbols ih =>
    have hs := hread s x
    rw [countOver]
    split
    · rename_i hr
      rw [hr] at hs
      exact hs
    · rename_i x₁ hr
      rw [hr] at hs
      have hx := ih x₁
      split
      all_goals
        rename_i hc
        rw [hc] at hx
        exact hx.trans hs

theorem readAccount_view (hA : ReadsLeave A view) (symbols : List Symbol) (x : σ) :
    view (readAccount A symbols x).2 = view x := by
  have ha := hA.getAccountState x
  unfold readAccount
  split
  · rename_i hr
    rw [hr] at ha
    exact ha
  · rename_i x₁ hr
    rw [hr] at ha
    have hp := countOver_view hA.getPosition (fun p => p.isSome.toNat) symbols x₁
    split
    · rename_i hc
      rw [hc] at hp
      exact hp.trans ha
    · rename_i x₂ hc
      rw [hc] at hp
      have ho := countOver_view hA.getOpenOrders List.length symbols x₂
      split
      all_goals
        rename_i hl
        rw [hl] at ho
        exact (ho.trans hp).trans ha

/-- What has been read is all that a cycle of market data does to the exchange. -/
theorem tickAll_exchange {symbols : List Symbol}
    (h : tickAll A symbols f cache session x = (r, x')) :
    x' = (readAccount A symbols x).2 := by
  unfold tickAll at h
  split at h
  all_goals
    rename_i he
    rw [he]
    cases h
    rfl

theorem tickAll_view {symbols : List Symbol} (hA : ReadsLeave A view)
    (h : tickAll A symbols f cache session x = (r, x')) : view x' = view x := by
  rw [tickAll_exchange h]
  exact readAccount_view hA symbols x

end MarketDataCycleService

namespace ReconciliationEngine

theorem readEach_view {read : Symbol → Call σ α} (hread : ∀ s x, view (read s x).2 = view x)
    (symbols : List Symbol) (x : σ) : view (readEach read symbols x).2 = view x := by
  induction symbols generalizing x with
  | nil => rfl
  | cons s symbols ih =>
    have hs := hread s x
    rw [readEach]
    split
    all_goals
      rename_i hr
      rw [hr] at hs
      exact (ih _).trans hs

theorem reconcile_view (hA : ReadsLeave A view) (symbols : List Symbol) (m : PositionManager)
    (db : Database) (x : σ) : view (reconcile A symbols m db x).2 = view x := by
  have ha := hA.getAccountState x
  have hp := fun all x => readEach_view hA.getPosition all x
  have ho := fun all x => readEach_view hA.getOpenOrders all x
  exact ((ho _ _).trans (hp _ _)).trans ha

end ReconciliationEngine

end Reads

/-- What a worker shares with the pipeline. -/
def Worker.trading (w : Worker σ) (opened : ℤ) : PipelineState σ := ⟨⟨w.toDesk, w.session⟩, opened⟩

/-- A relation that everything respects that the loop of a worker does to the state it
shares with the pipeline. -/
structure LoopSteps (A : ExchangeAdapter σ) (config : AppConfig)
    (R : PipelineState σ → PipelineState σ → Prop) : Prop where
  refl : ∀ st, R st st
  trans : ∀ {st st' st''}, R st st' → R st' st'' → R st st''
  nextTick : ∀ st : PipelineState σ, R st { st with openedThisTick := 0 }
  account : ∀ st : PipelineState σ, R st { st with
    exchange := (MarketDataCycleService.readAccount A (symbols config) st.exchange).2 }
  assessed : ∀ row (st : PipelineState σ),
    R st { st with session := st.session.addVolatilityAssessment row }
  commit : ∀ st : PipelineState σ, R st { st with session := st.session.commit }
  safeMode : ∀ v (s : Supervisor) d n,
    R ⟨⟨d, s.session⟩, n⟩ ⟨⟨d, (s.attemptSafeMode v).session⟩, n⟩
  reread : ∀ latest (s : Supervisor) d n,
    R ⟨⟨d, s.session⟩, n⟩ ⟨⟨d, (s.syncStateFromDb latest).session⟩, n⟩
  exit : ∀ {i s o d} {st : PipelineState σ}, tickSymbol A i s st.toDesk = (o, d) →
    R st { st with toDesk := d }
  reconciled : ∀ m db (st : PipelineState σ), R st { st with
    exchange := (ReconciliationEngine.reconcile A (symbols config) m db st.exchange).2 }
  turn : ∀ o reliable snapshot st, R st (processNested A config o reliable snapshot st)

namespace LoopSteps

variable {A : ExchangeAdapter σ} {config : AppConfig} {R : PipelineState σ → PipelineState σ → Prop}

/-- Whatever the cycle fetches, it writes its assessments one by one. -/
theorem processResults (hR : LoopSteps A config R) (f : MarketFeed)
    (reads : AccountReads) (ss : List Symbol)
    (acc : List MarketSnapshot × MarketDataCache × Session) (st : PipelineState σ)
    (ha : R st { st with session := acc.2.2 }) :
    R st { st with session :=
      (ss.foldl (fun acc s => MarketDataCycleService.processResult f reads s acc) acc).2.2 } := by
  induction ss generalizing acc with
  | nil => exact ha
  | cons s ss ih =>
    refine ih _ ?_
    dsimp only
    unfold MarketDataCycleService.processResult
    split
    · exact ha
    split
    · exact ha
    dsimp only
    split
    · exact hR.trans ha (hR.assessed _ { st with session := acc.2.2 })
    · exact ha

theorem marketStage (hR : LoopSteps A config R)
    (h : CycleRunner.marketStage A config wiring i w = (r, w')) (n : ℤ) :
    R (w.trading n) (w'.trading n) := by
  unfold CycleRunner.marketStage at h
  split at h
  · dsimp only at h
    have hread := hR.account (w.trading n)
    split at h
    · rename_i ht
      have hx := MarketDataCycleService.tickAll_exchange ht
      cases h
      simp only [hx]
      exact hread
    · rename_i snapshots cache session x ht
      have hx := MarketDataCycleService.tickAll_exchange ht
      unfold MarketDataCycleService.tickAll at ht
      split at ht
      · cases ht
      · rename_i reads _ _
        have hrows := hR.processResults i.feed reads (symbols config) ([], w.cache, w.session)
          { w.trading n with exchange := x } (hR.refl _)
        cases ht
        cases h
        rw [hx] at hrows ⊢
        exact hR.trans hread (hR.trans hrows (hR.commit _))
  · cases h
    exact hR.refl _

theorem enforce (hR : LoopSteps A config R) (findings : Bool) (v : TriggerRead) (s : Supervisor)
    (d : Desk σ) (n : ℤ) : R ⟨⟨d, s.session⟩, n⟩ ⟨⟨d, (s.enforce findings v).session⟩, n⟩ := by
  unfold Supervisor.enforce
  split
  · exact hR.safeMode v s d n
  · exact hR.refl _

theorem healthStage (hR : LoopSteps A config R) (wiring : Wiring) (i : TickInputs)
    (snapshots : List MarketSnapshot) (w : Worker σ) (n : ℤ) :
    R (w.trading n) ((CycleRunner.healthStage config wiring i snapshots w).trading n) := by
  unfold CycleRunner.healthStage
  split
  · exact hR.enforce _ _ w.toSupervisor w.toDesk n
  · exact hR.refl _

/-- The exits of a cycle, one symbol after the other. -/
theorem tickSymbols (hR : LoopSteps A config R) (i : CycleInputs) (ss : List Symbol)
    (st : PipelineState σ) :
    R st { st with toDesk := (PositionTickService.tickSymbols A i ss st.toDesk).2 } := by
  induction ss generalizing st with
  | nil => exact hR.refl st
  | cons s ss ih =>
    rcases ht : tickSymbol A i s st.toDesk with ⟨o, d⟩
    have hexit := hR.exit ht
    simp only [PositionTickService.tickSymbols, ht]
    exact hR.trans hexit (ih { st with toDesk := d })

theorem positionStage (hR : LoopSteps A config R) (wiring : Wiring) (i : TickInputs)
    (w : Worker σ) (n : ℤ) :
    R (w.trading n) ((CycleRunner.positionStage A wiring i w).trading n) := by
  unfold CycleRunner.positionStage
  split
  · exact hR.tickSymbols _ _ (w.trading n)
  · exact hR.refl _

theorem gateStage (hR : LoopSteps A config R) (wiring : Wiring) (i : TickInputs) (w : Worker σ)
    (n : ℤ) : R (w.trading n) ((CycleRunner.gateStage A config wiring i w).2.trading n) := by
  unfold CycleRunner.gateStage ReconciliationGate.runAndEnforce
  split
  · dsimp only
    split
    · exact hR.refl _
    · have hread := hR.reconciled w.manager w.session.working (w.trading n)
      exact hR.trans hread (hR.enforce _ _ w.toSupervisor _ n)
  · exact hR.refl _

/-- The symbols of a tick, one turn after the other. -/
theorem runDecisionPipeline (hR : LoopSteps A config R) (i : TickInputs)
    (unverified : List Symbol) (reliable : Bool) (snapshots : List MarketSnapshot) (w : Worker σ)
    (opened : ℤ) :
    ∃ n, R (w.trading opened)
      ((CycleRunner.runDecisionPipeline A config i unverified reliable snapshots
        (w, opened)).1.trading n) := by
  induction snapshots generalizing w opened with
  | nil => exact ⟨opened, hR.refl _⟩
  | cons snapshot rest ih =>
    let w₁ : Worker σ := { w with toSupervisor := w.syncStateFromDb (i.latest (rest.length + 1)) }
    have hsync : R (w.trading opened) (w₁.trading opened) :=
      hR.reread _ w.toSupervisor w.toDesk opened
    rw [CycleRunner.runDecisionPipeline]
    dsimp only
    split
    · exact ⟨opened, hsync⟩
    split
    · obtain ⟨n, hr⟩ := ih w₁ opened
      exact ⟨n, hR.trans hsync hr⟩
    split
    · obtain ⟨n, hr⟩ := ih w₁ opened
      exact ⟨n, hR.trans hsync hr⟩
    · let st := processNested A config i.sources reliable snapshot (w₁.trading opened)
      obtain ⟨n, hr⟩ := ih { w₁ with toDesk := st.toDesk, session := st.session } st.openedThisTick
      have hturn : R (w₁.trading opened) st := hR.turn i.sources reliable snapshot _
      exact ⟨n, hR.trans (hR.trans hsync hturn) hr⟩

theorem pipelineStage (hR : LoopSteps A config R) (wiring : Wiring) (i : TickInputs)
    (snapshots : List MarketSnapshot) (report : Option ReconciliationReport) (w : Worker σ)
    (n : ℤ) :
    ∃ n', R (w.trading n)
      ((CycleRunner.pipelineStage A config wiring i snapshots report w).trading n') := by
  unfold CycleRunner.pipelineStage
  split
  · obtain ⟨n', hr⟩ := hR.runDecisionPipeline i ((report.map (·.failedSymbols)).getD [])
      ((report.map (·.isComplete)).getD true) snapshots (calling .decisionPipeline w) 0
    exact ⟨n', hR.trans (hR.nextTick (w.trading n)) hr⟩
  · exact ⟨n, hR.refl _⟩

theorem tick (hR : LoopSteps A config R) (h : CycleRunner.tick A config wiring i w = (r, w'))
    (n : ℤ) : ∃ n', R (w.trading n) (w'.trading n') := by
  unfold CycleRunner.tick at h
  split at h
  · rename_i hm
    have hmarket := hR.marketStage hm n
    cases h
    exact ⟨n, hmarket⟩
  · rename_i snapshots w₁ hm
    have hmarket := hR.marketStage hm n
    have hhealth := hR.healthStage wiring i snapshots w₁ n
    have hexits := hR.positionStage wiring i
      (CycleRunner.healthStage config wiring i snapshots w₁) n
    have hgate := hR.gateStage wiring i (CycleRunner.positionStage A wiring i
      (CycleRunner.healthStage config wiring i snapshots w₁)) n
    have hstages := hR.trans (hR.trans (hR.trans hmarket hhealth) hexits) hgate
    cases h
    obtain ⟨n', hp⟩ := hR.pipelineStage wiring i snapshots _ _ n
    exact ⟨n', hR.trans hstages hp⟩

/-- So the loop respects it, for as long as it goes on. -/
theorem run (hR : LoopSteps A config R) (wiring : Wiring) (its : List Iteration) (w : Worker σ)
    (n : ℤ) : ∃ n', R (w.trading n) ((CycleRunner.run A config wiring its w).2.trading n') := by
  induction its generalizing w n with
  | nil => exact ⟨n, hR.refl _⟩
  | cons it rest ih =>
    let w₁ : Worker σ := { w with toSupervisor := w.syncStateFromDb it.latest }
    have hsync : R (w.trading n) (w₁.trading n) := hR.reread _ w.toSupervisor w.toDesk n
    rw [CycleRunner.run]
    dsimp only
    split
    · obtain ⟨n', h'⟩ := ih w₁ n
      exact ⟨n', hR.trans hsync h'⟩
    split
    · rename_i ht
      obtain ⟨n', h'⟩ := hR.tick ht n
      exact ⟨n', hR.trans hsync h'⟩
    · rename_i ht
      obtain ⟨n₁, h₁⟩ := hR.tick ht n
      obtain ⟨n', h'⟩ := ih _ n₁
      exact ⟨n', hR.trans (hR.trans hsync h₁) h'⟩

end LoopSteps

end FuturesBot
