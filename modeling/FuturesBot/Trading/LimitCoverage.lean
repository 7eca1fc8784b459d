import FuturesBot.Trading.OpenLimit

namespace FuturesBot
open Lib CycleRunner MarketDataCycleService

/-- The fetchers pass the count of positions on as they are given it. -/
def KeepsCount (f : MarketFeed) : Prop :=
  ∀ symbol reads snapshot, f.fetchSnapshot symbol reads = .ok snapshot →
    snapshot.openPositionsCount = reads.openPositionsCount

/-- Every snapshot of a cycle carries the count that was read at its start. -/
theorem MarketDataCycleService.tickAll_counted {symbols : List Symbol} (hf : KeepsCount f)
    (h : tickAll A symbols f cache session x = (.ok (snapshots, cache', session'), x')) :
    ∃ reads, readAccount A symbols x = (.ok reads, x') ∧
      ∀ snapshot ∈ snapshots, snapshot.openPositionsCount = reads.openPositionsCount := by
  unfold tickAll at h
  split at h
  · cases h
  · rename_i reads x₁ hr
    have hall : ∀ (ss : List Symbol) (st : List MarketSnapshot × MarketDataCache × Session),
        (∀ snapshot ∈ st.1, snapshot.openPositionsCount = reads.openPositionsCount) →
        ∀ snapshot ∈ (ss.foldl (fun st symbol => processResult f reads symbol st) st).1,
          snapshot.openPositionsCount = reads.openPositionsCount := by
      intro ss
      induction ss with
      | nil => exact fun _ hst => hst
      | cons s ss ih =>
        intro st hst
        refine ih _ ?_
        dsimp only
        unfold processResult
        split
        · exact hst
        · rename_i snapshot hs
          split
          · exact hst
          · intro snapshot' hm
            rcases List.mem_append.mp hm with hm | hm
            · exact hst snapshot' hm
            · rw [List.mem_singleton.mp hm]
              exact hf _ _ _ hs
    cases h
    exact ⟨reads, hr, hall _ _ (by simp)⟩

variable {A : ExchangeAdapter σ} {isOpen mayOpen : σ → Finset Symbol}

/-- The exits of a tick expose no further symbol. -/
theorem TracksPositions.exits (hA : TracksPositions A isOpen mayOpen) :
    ExitsStayIn A (fun x x' => exposed isOpen mayOpen x' ⊆ exposed isOpen mayOpen x) where
  refl _ := subset_rfl
  trans _ _ _ h h' := h'.trans h
  getPosition s x := (hA.getPosition s x).subset
  reduceOnly request x hm hr := hA.placeOrder_reduceOnly request x hm hr

/-- What a worker shares with the pipeline, and the count of its tick. -/
def Worker.limited (w : Worker σ) (opened : ℤ) (n : ℕ) : CountedState σ :=
  ⟨⟨⟨w.toDesk, w.session⟩, opened⟩, n⟩

/-- A settled run leads from the one state to the other. -/
def LimitReaches (A : ExchangeAdapter σ) (isOpen mayOpen : σ → Finset Symbol) (config : AppConfig)
    (st st' : CountedState σ) : Prop :=
  ∃ es, Run (Guarded (LimitStep A isOpen mayOpen config) (SettledAtStart A isOpen mayOpen config))
    st es st'

namespace LimitReaches

theorem refl (st : CountedState σ) : LimitReaches A isOpen mayOpen config st st := ⟨[], .nil st⟩

theorem trans (h : LimitReaches A isOpen mayOpen config st st')
    (h' : LimitReaches A isOpen mayOpen config st' st'') :
    LimitReaches A isOpen mayOpen config st st'' := by
  obtain ⟨es, hr⟩ := h
  obtain ⟨es', hr'⟩ := h'
  exact ⟨es ++ es', hr.append hr'⟩

theorem step (h : LimitStep A isOpen mayOpen config st e st')
    (hok : SettledAtStart A isOpen mayOpen config st e) :
    LimitReaches A isOpen mayOpen config st st' := ⟨[e], .snoc (.nil st) ⟨h, hok⟩⟩

/-- Whatever exposes no further symbol is a step. -/
theorem world (w w' : Worker σ)
    (h : exposed isOpen mayOpen w'.exchange ⊆ exposed isOpen mayOpen w.exchange) (opened : ℤ)
    (n : ℕ) : LimitReaches A isOpen mayOpen config (w.limited opened n) (w'.limited opened n) :=
  .step (.world w'.exchange w'.manager w'.session h) trivial

end LimitReaches

namespace CycleRunner

variable (config : AppConfig) (wiring : Wiring) (i : TickInputs)

theorem marketStage_limited (hA : TracksPositions A isOpen mayOpen) (hf : KeepsCount i.feed)
    (hs : wiring.marketData → Settled A isOpen mayOpen (symbols config) w.exchange)
    (h : marketStage A config wiring i w = (r, w')) (opened : ℤ) (n : ℕ) :
    ∃ opened' n', LimitReaches A isOpen mayOpen config (w.limited opened n)
        (w'.limited opened' n') ∧
      ∀ snapshots, r = .ok snapshots → snapshots ≠ [] → opened' = 0 ∧
        ∀ snapshot ∈ snapshots, snapshot.openPositionsCount = n' := by
  unfold marketStage at h
  split at h
  · rename_i hm
    dsimp only at h
    split at h
    · rename_i ht
      have hx := tickAll_view hA.toReadsLeave ht
      cases h
      refine ⟨opened, n, .world w _ hx.subset opened n, ?_⟩
      intro snapshots hr
      cases hr
    · rename_i snapshots cache session x ht
      obtain ⟨reads, hreads, hall⟩ := tickAll_counted hf ht
      cases h
      have hread : LimitReaches A isOpen mayOpen config (w.limited opened n)
          { w.limited 0 reads.openPositionsCount with exchange := x } :=
        .step (.startTick hreads) (hs hm)
      have hstored : LimitReaches A isOpen mayOpen config
          { w.limited 0 reads.openPositionsCount with exchange := x }
          { w.limited 0 reads.openPositionsCount with exchange := x, session := session } :=
        .step (.world x w.manager session subset_rfl) trivial
      refine ⟨0, reads.openPositionsCount, hread.trans hstored, ?_⟩
      intro snapshots' hr _
      cases hr
      exact ⟨rfl, hall⟩
  · cases h
    refine ⟨opened, n, .refl _, ?_⟩
    intro snapshots hr hne
    cases hr
    exact absurd rfl hne

/-- The symbols of a tick, one turn after the other. -/
theorem runDecisionPipeline_limited (unverified : List Symbol) (reliable : Bool)
    (snapshots : List MarketSnapshot) (w : Worker σ) (opened : ℤ)
    (hn : ∀ snapshot ∈ snapshots, snapshot.openPositionsCount = n) :
    ∃ opened', LimitReaches A isOpen mayOpen config (w.limited opened n)
      ((runDecisionPipeline A config i unverified reliable snapshots (w, opened)).1.limited
        opened' n) := by
  induction snapshots generalizing w opened with
  | nil => exact ⟨opened, .refl _⟩
  | cons snapshot rest ih =>
    let w₁ : Worker σ := { w with toSupervisor := w.syncStateFromDb (i.latest (rest.length + 1)) }
    have hsync : LimitReaches A isOpen mayOpen config (w.limited opened n) (w₁.limited opened n) :=
      .world w w₁ subset_rfl opened n
    have hrest : ∀ s ∈ rest, s.openPositionsCount = n := fun s hs => hn s (by simp [hs])
    rw [runDecisionPipeline]
    dsimp only
    split
    · exact ⟨opened, hsync⟩
    split
    · obtain ⟨opened', hr⟩ := ih w₁ opened hrest
      exact ⟨opened', hsync.trans hr⟩
    split
    · obtain ⟨opened', hr⟩ := ih w₁ opened hrest
      exact ⟨opened', hsync.trans hr⟩
    · let st := processNested A config i.sources reliable snapshot
        (w₁.limited opened n).toPipelineState
      obtain ⟨opened', hr⟩ := ih { w₁ with toDesk := st.toDesk, session := st.session }
        st.openedThisTick hrest
      have hturn : LimitReaches A isOpen mayOpen config (w₁.limited opened n) ⟨st, n⟩ :=
        .step (.turn i.sources reliable snapshot (hn snapshot (by simp))) trivial
      exact ⟨opened', (hsync.trans hturn).trans hr⟩

theorem pipelineStage_limited (snapshots : List MarketSnapshot)
    (report : Option ReconciliationReport) (w : Worker σ)
    (hn : snapshots ≠ [] → opened = 0 ∧ ∀ snapshot ∈ snapshots, snapshot.openPositionsCount = n) :
    ∃ opened', LimitReaches A isOpen mayOpen config (w.limited opened n)
      ((pipelineStage A config wiring i snapshots report w).limited opened' n) := by
  unfold pipelineStage
  split
  · rename_i hp
    obtain ⟨rfl, hall⟩ := hn hp.2
    exact runDecisionPipeline_limited config i _ _ snapshots (calling .decisionPipeline w) 0 hall
  · exact ⟨opened, .refl _⟩

/-- A tick that finds the account settled is a settled run. -/
theorem tick_limited (hA : TracksPositions A isOpen mayOpen) (hf : KeepsCount i.feed)
    (hs : wiring.marketData → Settled A isOpen mayOpen (symbols config) w.exchange)
    (h : tick A config wiring i w = (r, w')) (opened : ℤ) (n : ℕ) :
    ∃ opened' n', LimitReaches A isOpen mayOpen config (w.limited opened n)
      (w'.limited opened' n') := by
  unfold tick at h
  rcases hm : marketStage A config wiring i { w with calls := [] } with ⟨e | snapshots, w₁⟩
  all_goals
    rw [hm] at h
    obtain ⟨opened₁, n₁, hmarket, hcounts⟩ :=
      marketStage_limited config wiring i hA hf (w := { w with calls := [] }) hs hm opened n
  · cases h
    exact ⟨opened₁, n₁, hmarket⟩
  · let w₂ := healthStage config wiring i snapshots w₁
    let w₃ := positionStage A wiring i w₂
    let w₄ := (gateStage A config wiring i w₃).2
    have hhealth : w₂.exchange = w₁.exchange := by
      simp only [w₂, healthStage]
      split <;> rfl
    have hexits : exposed isOpen mayOpen w₃.exchange ⊆ exposed isOpen mayOpen w₂.exchange := by
      simp only [w₃, positionStage]
      split
      · exact hA.exits.tickSymbols _ _ _
      · exact subset_rfl
    have hgate : exposed isOpen mayOpen w₄.exchange = exposed isOpen mayOpen w₃.exchange := by
      simp only [w₄, gateStage, ReconciliationGate.runAndEnforce]
      split
      · split
        · rfl
        · exact ReconciliationEngine.reconcile_view hA.toReadsLeave (symbols config) w₃.manager
            w₃.session.working w₃.exchange
      · rfl
    have hstages : LimitReaches A isOpen mayOpen config (w₁.limited opened₁ n₁)
        (w₄.limited opened₁ n₁) := by
      refine .world w₁ w₄ ?_ opened₁ n₁
      rw [hgate, ← hhealth]
      exact hexits
    have hbefore := hmarket.trans hstages
    cases h
    obtain ⟨opened', hr⟩ := pipelineStage_limited config wiring i snapshots
      (gateStage A config wiring i w₃).1 w₄ (hcounts snapshots rfl)
    exact ⟨opened', n₁, hbefore.trans hr⟩

/-- In every tick that the loop reaches the account is settled when it is read. -/
def SettledTicks (A : ExchangeAdapter σ) (isOpen mayOpen : σ → Finset Symbol) (config : AppConfig)
    (wiring : Wiring) : List Iteration → Worker σ → Prop
  | [], _ => True
  | it :: rest, w =>
    let w := { w with toSupervisor := w.syncStateFromDb it.latest }
    if ¬w.botState.isRunning then SettledTicks A isOpen mayOpen config wiring rest w
    else (wiring.marketData → Settled A isOpen mayOpen (symbols config) w.exchange) ∧
      SettledTicks A isOpen mayOpen config wiring rest (tick A config wiring it.inputs w).2

theorem run_limited (hA : TracksPositions A isOpen mayOpen) (its : List Iteration) (w : Worker σ)
    (hf : ∀ it ∈ its, KeepsCount it.inputs.feed)
    (hs : SettledTicks A isOpen mayOpen config wiring its w) (opened : ℤ) (n : ℕ) :
    ∃ opened' n', LimitReaches A isOpen mayOpen config (w.limited opened n)
      ((run A config wiring its w).2.limited opened' n') := by
  induction its generalizing w opened n with
  | nil => exact ⟨opened, n, .refl _⟩
  | cons it rest ih =>
    let w₁ : Worker σ := { w with toSupervisor := w.syncStateFromDb it.latest }
    have hsync : LimitReaches A isOpen mayOpen config (w.limited opened n) (w₁.limited opened n) :=
      .world w w₁ subset_rfl opened n
    have hrest : ∀ it ∈ rest, KeepsCount it.inputs.feed := fun it hm => hf it (by simp [hm])
    rw [SettledTicks] at hs
    rw [run]
    dsimp only at hs ⊢
    split at hs
    · rename_i hstopped
      rw [if_pos hstopped]
      obtain ⟨opened', n', hr⟩ := ih w₁ hrest hs opened n
      exact ⟨opened', n', hsync.trans hr⟩
    · rename_i hruns
      rw [if_neg hruns]
      obtain ⟨hsettled, hs⟩ := hs
      split
      · rename_i ht
        obtain ⟨opened', n', hr⟩ :=
          tick_limited (w := w₁) config wiring it.inputs hA (hf it (by simp)) hsettled ht opened n
        exact ⟨opened', n', hsync.trans hr⟩
      · rename_i ht
        obtain ⟨opened₁, n₁, h₁⟩ :=
          tick_limited (w := w₁) config wiring it.inputs hA (hf it (by simp)) hsettled ht opened n
        rw [ht] at hs
        obtain ⟨opened', n', hr⟩ := ih _ hrest hs opened₁ n₁
        exact ⟨opened', n', (hsync.trans h₁).trans hr⟩

/-- However long the worker loops, the limit holds as long as its ticks find the account
settled. -/
theorem run_open_le (hA : TracksPositions A isOpen mayOpen)
    (hx : exposed isOpen mayOpen w.exchange = ∅) (hf : ∀ it ∈ its, KeepsCount it.inputs.feed)
    (hs : SettledTicks A isOpen mayOpen config wiring its w) :
    ((isOpen (run A config wiring its w).2.exchange).card : ℤ) ≤
      config.trading.maxOpenPositions := by
  obtain ⟨opened, n, es, hr⟩ := run_limited config wiring hA its w hf hs 0 0
  have hstart : WithinLimit isOpen mayOpen config (w.limited 0 0) := .start hx rfl
  exact (hstart.run hA hr).open_le

end CycleRunner

end FuturesBot
