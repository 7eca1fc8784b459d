import FuturesBot.Exchange.Exposed
import FuturesBot.Trading.FailClosed

namespace FuturesBot
open Lib CycleRunner MarketDataCycleService

variable {A : ExchangeAdapter σ} {isOpen mayOpen : σ → Finset Symbol}

/-- Each symbol that is read without a position has, at that moment, no order that may
still open one. A read that raises ends the tick. -/
def SettledReads (A : ExchangeAdapter σ) (mayOpen : σ → Finset Symbol) : List Symbol → σ → Prop
  | [], _ => True
  | s :: ss, x =>
    match A.getPosition s x with
    | (.error _, _) => True
    | (.ok position, x) => (position = none → s ∉ mayOpen x) ∧ SettledReads A mayOpen ss x

/-- A tick that reads the account now misses nothing. -/
def Settled (A : ExchangeAdapter σ) (isOpen mayOpen : σ → Finset Symbol) (symbols : List Symbol)
    (x : σ) : Prop :=
  SettledReads A mayOpen symbols (A.getAccountState x).2 ∧
    exposed isOpen mayOpen x ⊆ symbols.toFinset

namespace MarketDataCycleService

/-- The count of the positions is at least that of the exposed symbols that were asked
for. -/
theorem countOver_exposed (hA : TracksPositions A isOpen mayOpen) {symbols : List Symbol}
    {x x' : σ} {n : ℕ} (hs : SettledReads A mayOpen symbols x)
    (h : countOver A.getPosition (fun p => p.isSome.toNat) symbols x = (.ok n, x')) :
    (exposed isOpen mayOpen x ∩ symbols.toFinset).card ≤ n := by
  induction symbols generalizing x x' n with
  | nil => simp
  | cons s symbols ih =>
    have hx := hA.getPosition s x
    rw [countOver] at h
    rw [SettledReads] at hs
    rcases hp : A.getPosition s x with ⟨e | position, x₁⟩
    · rw [hp] at h
      cases h
    · rw [hp] at h hs hx
      obtain ⟨hnone, hs⟩ := hs
      dsimp only at h
      split at h
      · cases h
      · rename_i m x₂ hc
        cases h
        have hrest := ih hs hc
        rw [hx] at hrest
        cases position with
        | none =>
          have hopen : s ∉ exposed isOpen mayOpen x := by
            rw [← hx, exposed, Finset.notMem_union]
            exact ⟨hA.getPosition_none _ _ _ hp, hnone rfl⟩
          have hsub : exposed isOpen mayOpen x ∩ (s :: symbols).toFinset =
              exposed isOpen mayOpen x ∩ symbols.toFinset := by
            rw [List.toFinset_cons, Finset.inter_insert_of_notMem hopen]
          rw [hsub]
          simpa using hrest
        | some p =>
          have hsub : exposed isOpen mayOpen x ∩ (s :: symbols).toFinset ⊆
              insert s (exposed isOpen mayOpen x ∩ symbols.toFinset) := by
            intro q hq
            simp only [List.toFinset_cons, Finset.mem_inter, Finset.mem_insert] at hq ⊢
            tauto
          have hcard := (Finset.card_le_card hsub).trans (Finset.card_insert_le _ _)
          simp only [Option.isSome_some, Bool.toNat_true]
          omega

/-- So in a settled account every exposed symbol is counted. -/
theorem readAccount_exposed {symbols : List Symbol} (hA : TracksPositions A isOpen mayOpen)
    (hs : Settled A isOpen mayOpen symbols x) (h : readAccount A symbols x = (.ok reads, x')) :
    exposed isOpen mayOpen x' = exposed isOpen mayOpen x ∧
      (exposed isOpen mayOpen x).card ≤ reads.openPositionsCount := by
  have hx := readAccount_view hA.toReadsLeave symbols x
  rw [h] at hx
  refine ⟨hx, ?_⟩
  have ha := hA.getAccountState x
  unfold readAccount at h
  split at h
  · cases h
  · rename_i account x₁ hr
    rw [hr] at ha
    split at h
    · cases h
    · rename_i positions x₂ hc
      split at h
      · cases h
      · cases h
        obtain ⟨hreads, hasked⟩ := hs
        rw [hr] at hreads
        have hcount := countOver_exposed hA hreads hc
        rw [ha, Finset.inter_eq_left.mpr hasked] at hcount
        exact hcount

end MarketDataCycleService

namespace CycleRunner

/-- The counter has followed the order: only one that is known to have left nothing is
not counted. -/
def Counted (A : ExchangeAdapter σ) (order : Option (OrderRequest × σ)) (st st' : PipelineState σ) :
    Prop :=
  st.openedThisTick ≤ st'.openedThisTick ∧ ∀ request y, order = some (request, y) →
    st'.openedThisTick = st.openedThisTick + 1 ∨
    ∃ result, A.placeOrder request y = (.ok result, st'.exchange) ∧
      (result.status = .cancelled ∨ result.status = .failed) ∧ result.quantityFilled = 0

theorem Counted.none {st st' : PipelineState σ} (h : st'.openedThisTick = st.openedThisTick) :
    Counted A none st st' :=
  ⟨h.ge, by simp⟩

theorem executeApprovedPlan_result
    (hs : ExecutionEngine.sentOrder A d r estimate st = some (atr1h, request, y))
    (h : ExecutionEngine.executeApprovedPlan A s d r estimate st = (.ok execution, st')) :
    A.placeOrder request y = (.ok execution.orderResult, st'.exchange) := by
  unfold ExecutionEngine.sentOrder at hs
  unfold ExecutionEngine.executeApprovedPlan at h
  split at hs
  · cases hs
  rename_i hrow
  rw [hrow] at h
  split at hs
  · cases hs
  rename_i adjusted atr hplan
  rw [hplan] at h
  dsimp only at h
  split at hs
  · cases hs
  rename_i hp
  cases hs
  rw [hp] at h
  dsimp only at h
  rcases ho : A.placeOrder request y with ⟨e | result, x'⟩
  · rw [ho] at h
    cases h
  · rw [ho] at h
    have hx := congrArg (·.2.exchange) h
    rw [ExecutionEngine.recordEntry_exchange] at hx
    have hresult : execution.orderResult = result := by
      dsimp only at h
      unfold ExecutionEngine.recordEntry at h
      dsimp only at h
      repeat' split at h
      all_goals cases h
      all_goals rfl
    rw [hresult]
    exact Prod.ext rfl hx

theorem enter_counted (h : enter A config snapshot d r slippage st = (o, st')) :
    Counted A (enterOrder A config snapshot d r slippage st) st st' := by
  unfold enter at h
  unfold enterOrder
  cases hadj : r.adjustedParameters with
  | none =>
    rw [hadj] at h
    cases h
    exact .none rfl
  | some approved =>
    rw [hadj] at h
    dsimp only at h ⊢
    cases hest : executedEstimate config snapshot d approved slippage with
    | error e =>
      rw [hest] at h
      cases h
      exact .none rfl
    | ok estimate =>
      rw [hest] at h
      dsimp only at h ⊢
      split at h
      · cases h
        exact ⟨by simp, fun _ _ _ => .inl rfl⟩
      · rename_i execution t he
        split at h
        · rename_i hnothing
          cases h
          refine ⟨by simp, ?_⟩
          intro request y horder
          obtain ⟨⟨atr1h, sent⟩, hsent, hp⟩ := Option.map_eq_some_iff.mp horder
          obtain rfl : sent = (request, y) := hp
          exact .inr ⟨_, executeApprovedPlan_result hsent he, hnothing⟩
        · cases h
          exact ⟨by simp, fun _ _ _ => .inl rfl⟩

theorem processSymbol_counted (h : processSymbol A config o reliable snapshot st = (r, st')) :
    Counted A (turnOrder A config o reliable snapshot st) st st' := by
  rw [turnOrder_eq]
  rcases processSymbol_cases h with ⟨hv, hu⟩ | ⟨v, hv, h⟩
  · rw [hv]
    exact .none hu.counter
  · obtain ⟨action, x, _, _, _, hst⟩ := verdict_iff.mp hv
    have hn : v.state.openedThisTick = st.openedThisTick := by rw [hst]
    rw [hv]
    dsimp only [Option.bind_some]
    by_cases he : v.result.decision.executable
    · rw [if_pos he] at h ⊢
      have hc := enter_counted h
      unfold Counted at hc ⊢
      rwa [hn] at hc
    · rw [if_neg he] at h ⊢
      cases h
      exact .none hn

theorem processNested_counted : Counted A (turnOrder A config o reliable snapshot st) st
    (processNested A config o reliable snapshot st) := by
  unfold processNested
  split
  · rename_i hp
    exact processSymbol_counted hp
  · rename_i st' hp
    have hc : Counted A (turnOrder A config o reliable snapshot st) st st' :=
      processSymbol_counted hp
    exact hc

/-- An order is only sent while the positions and attempts that are counted are below
the limit. -/
theorem turnOrder_below (h : turnOrder A config o reliable snapshot st = some (request, y)) :
    snapshot.openPositionsCount + st.openedThisTick < config.trading.maxOpenPositions := by
  obtain ⟨d, action, r, slippage, x, _, _, hs, he, _⟩ := turnOrder_iff.mp h
  obtain ⟨fees, x₁, position, _, _, _, hv⟩ := assess_ok_iff.mp hs
  obtain ⟨hx, hg, _⟩ := validate_executable hv he
  obtain ⟨_, ho⟩ := gatesClear_iff.mp hg
  obtain ⟨n, hn, hlt⟩ := checkMaxOpenPositions_pass (d.decision_of_execute hx) ho.openPositions
  have hcount : (if reliable then some ((snapshot.openPositionsCount : ℤ) + st.openedThisTick)
      else none) = some n := hn
  split at hcount
  · cases hcount
    exact hlt
  · cases hcount

end CycleRunner

/-- The pipeline of a tick, with the count that the tick began with. -/
structure CountedState (σ : Type u) extends PipelineState σ where
  counted : ℕ := 0

inductive LimitEvent
  | other | startTick | turn

/-- The steps of a run. `world` is everything else that happens: fills, closes and
cancellations, the exits of a tick, what the manager and the session are changed to. -/
inductive LimitStep (A : ExchangeAdapter σ) (isOpen mayOpen : σ → Finset Symbol)
    (config : AppConfig) : CountedState σ → LimitEvent → CountedState σ → Prop
  | world {st : CountedState σ} (x : σ) (m : PositionManager) (s : Session)
      (h : exposed isOpen mayOpen x ⊆ exposed isOpen mayOpen st.exchange) :
      LimitStep A isOpen mayOpen config st .other
        { st with exchange := x, manager := m, session := s }
  | startTick {st : CountedState σ} {reads : AccountReads} {x : σ}
      (h : readAccount A (symbols config) st.exchange = (.ok reads, x)) :
      LimitStep A isOpen mayOpen config st .startTick
        { st with exchange := x, openedThisTick := 0, counted := reads.openPositionsCount }
  | turn {st : CountedState σ} (o : DecisionSources) (reliable : Bool) (snapshot : MarketSnapshot)
      (h : snapshot.openPositionsCount = st.counted) :
      LimitStep A isOpen mayOpen config st .turn
        ⟨processNested A config o reliable snapshot st.toPipelineState, st.counted⟩

/-- When a tick reads the account, no order rests that could open a further position. -/
def SettledAtStart (A : ExchangeAdapter σ) (isOpen mayOpen : σ → Finset Symbol)
    (config : AppConfig) (st : CountedState σ) : LimitEvent → Prop
  | .startTick => Settled A isOpen mayOpen (symbols config) st.exchange
  | .other | .turn => True

/-- What is exposed stays below the limit, and below what the tick has counted. -/
structure WithinLimit (isOpen mayOpen : σ → Finset Symbol) (config : AppConfig)
    (st : CountedState σ) : Prop where
  limit : ((exposed isOpen mayOpen st.exchange).card : ℤ) ≤ config.trading.maxOpenPositions
  counted : ((exposed isOpen mayOpen st.exchange).card : ℤ) ≤ st.counted + st.openedThisTick

theorem WithinLimit.mono (h : WithinLimit isOpen mayOpen config st)
    (hx : exposed isOpen mayOpen st'.exchange ⊆ exposed isOpen mayOpen st.exchange)
    (hc : st.counted + st.openedThisTick ≤ st'.counted + st'.openedThisTick) :
    WithinLimit isOpen mayOpen config st' := by
  have hcard := Finset.card_le_card hx
  exact ⟨by have := h.limit; omega, by have := h.counted; omega⟩

theorem WithinLimit.turn (hA : TracksPositions A isOpen mayOpen)
    (h : WithinLimit isOpen mayOpen config st)
    (hn : snapshot.openPositionsCount = st.counted) :
    WithinLimit isOpen mayOpen config
      ⟨processNested A config o reliable snapshot st.toPipelineState, st.counted⟩ := by
  have hs : Sent A (exposed isOpen mayOpen)
      (turnOrder A config o reliable snapshot st.toPipelineState) st.exchange
      (processNested A config o reliable snapshot st.toPipelineState).exchange :=
    processNested_sent hA.toUntouched
  have hcounted : Counted A (turnOrder A config o reliable snapshot st.toPipelineState)
      st.toPipelineState (processNested A config o reliable snapshot st.toPipelineState) :=
    processNested_counted
  rcases ht : turnOrder A config o reliable snapshot st.toPipelineState with _ | ⟨request, y⟩
  · rw [ht] at hs hcounted
    have hsame : exposed isOpen mayOpen
        (processNested A config o reliable snapshot st.toPipelineState).exchange =
        exposed isOpen mayOpen st.exchange := hs
    exact h.mono hsame.subset (by simpa using hcounted.1)
  · have hlt := turnOrder_below ht
    rw [ht] at hs hcounted
    obtain ⟨hy, _, hx⟩ := hs
    obtain ⟨hle, horder⟩ := hcounted
    rcases horder request y rfl with hplus | ⟨result, hplaced, hnothing, hzero⟩
    · have hone := hA.placeOrder_one request y
      rw [← hx, hy] at hone
      have hcard := (Finset.card_le_card hone).trans (Finset.card_insert_le _ _)
      have hbefore := h.counted
      constructor <;> dsimp only <;> omega
    · have hsub := hA.placeOrder_nothing _ _ _ _ hplaced hnothing hzero
      rw [hy] at hsub
      exact h.mono hsub (by simpa using hle)

theorem WithinLimit.step (hA : TracksPositions A isOpen mayOpen)
    (h : WithinLimit isOpen mayOpen config st)
    (hs : Guarded (LimitStep A isOpen mayOpen config) (SettledAtStart A isOpen mayOpen config)
      st e st') : WithinLimit isOpen mayOpen config st' := by
  obtain ⟨hs, hok⟩ := hs
  cases hs with
  | world x m s hx => exact h.mono hx le_rfl
  | startTick hr =>
    obtain ⟨hx, hcard⟩ := readAccount_exposed hA hok hr
    have hlimit := h.limit
    constructor
    · rw [hx]
      exact hlimit
    · rw [hx]
      simpa using hcard
  | turn o reliable snapshot hn => exact h.turn hA hn

theorem WithinLimit.run (hA : TracksPositions A isOpen mayOpen)
    (h : WithinLimit isOpen mayOpen config st)
    (hr : Run (Guarded (LimitStep A isOpen mayOpen config)
      (SettledAtStart A isOpen mayOpen config)) st es st') :
    WithinLimit isOpen mayOpen config st' :=
  hr.invariant h (fun _ _ _ h hs => h.step hA hs)

theorem WithinLimit.start {st : CountedState σ} (hx : exposed isOpen mayOpen st.exchange = ∅)
    (ho : st.openedThisTick = 0) : WithinLimit isOpen mayOpen config st := by
  have hone := config.trading.within_allowed.1
  constructor
  · rw [hx, Finset.card_empty]
    omega
  · rw [hx, ho, Finset.card_empty]
    omega

theorem WithinLimit.open_le (h : WithinLimit isOpen mayOpen config st) :
    ((isOpen st.exchange).card : ℤ) ≤ config.trading.maxOpenPositions := by
  have hsub : (isOpen st.exchange).card ≤ (exposed isOpen mayOpen st.exchange).card :=
    Finset.card_le_card Finset.subset_union_left
  have hlimit := h.limit
  omega

/-- The limit on open positions holds in every run in which the account is settled when a
tick reads it. -/
theorem open_limit_holds (hA : TracksPositions A isOpen mayOpen)
    (hx : exposed isOpen mayOpen st.exchange = ∅) (ho : st.openedThisTick = 0)
    (hr : Run (Guarded (LimitStep A isOpen mayOpen config)
      (SettledAtStart A isOpen mayOpen config)) st es st') :
    ((isOpen st'.exchange).card : ℤ) ≤ config.trading.maxOpenPositions := by
  have hstart : WithinLimit isOpen mayOpen config st := .start hx ho
  exact (hstart.run hA hr).open_le

open PaperAdapter

def restingDecision : ModelDecision :=
  { sampleDecision with decisionId := "resting", entryType := .limit, valid := by decide +kernel }

def secondDecision : ModelDecision :=
  { sampleDecision with decisionId := "second", symbol := "ETHUSDT", valid := by decide +kernel }

def secondSnapshot : MarketSnapshot :=
  { sampleSnapshot with
    symbol := "ETHUSDT"
    valid := by norm_num [sampleSnapshot, MarketSnapshotFields.Valid, allowedSymbols] }

/-- A model that proposes this decision, and is believed. -/
def proposing (d : ModelDecision) : DecisionSources where
  analyse _ := .ok ()
  request _ := .ok (some d)
  aggregate _ d := .ok d.decision

def twoSymbols : CountedState PaperAdapter where
  manager := .idle
  exchange := {}
  session :=
    { working := { volatilityAssessments := [⟨"BTCUSDT", 0, some 2⟩, ⟨"ETHUSDT", 0, some 2⟩] } }

/-- A tick of the simulation begins. -/
def begun (st : CountedState PaperAdapter) : CountedState PaperAdapter :=
  match readAccount exchange (symbols defaultConfig) st.exchange with
  | (.ok reads, x) =>
    { st with exchange := x, openedThisTick := 0, counted := reads.openPositionsCount }
  | (.error _, _) => st

def turned (d : ModelDecision) (snapshot : MarketSnapshot) (st : CountedState PaperAdapter) :
    CountedState PaperAdapter :=
  ⟨processNested exchange defaultConfig (proposing d) true snapshot st.toPipelineState, st.counted⟩

/-- A first tick leaves a LIMIT order pending, and a second one enters another symbol. -/
def rested : CountedState PaperAdapter := turned restingDecision sampleSnapshot (begun twoSymbols)

def entered : CountedState PaperAdapter := turned secondDecision secondSnapshot (begun rested)

def filledResting : OrderResult where
  clientOrderId := "resting"
  symbol := "BTCUSDT"
  side := .buy
  orderType := .limit
  status := .filled
  quantityRequested := 1 / 2
  quantityFilled := 1 / 2
  fillPrice := some 100
  isSimulated := true
  timestampUtc := 0
  valid := by decide +kernel

def restingPosition : PositionState where
  symbol := "BTCUSDT"
  side := .buy
  quantity := 1 / 2
  entryPrice := 100
  marginUsdt := 10
  leverage := 5
  isSimulated := true
  valid := by decide +kernel

/-- The pending order fills. -/
def fillResting (a : PaperAdapter) : PaperAdapter :=
  { a with
    orders := a.orders.set "resting" filledResting
    positions := a.positions.set "BTCUSDT" restingPosition }

def overfull : CountedState PaperAdapter :=
  { entered with exchange := fillResting entered.exchange }

theorem begun_step {st : CountedState PaperAdapter}
    (h : (readAccount exchange (symbols defaultConfig) st.exchange).1.isOk = true) :
    LimitStep exchange openSymbols pendingSymbols defaultConfig st .startTick (begun st) := by
  unfold begun
  rcases hr : readAccount exchange (symbols defaultConfig) st.exchange with ⟨e | reads, x⟩
  · rw [hr] at h
    cases h
  · exact .startTick hr

theorem rested_run (ok : CountedState PaperAdapter → LimitEvent → Prop)
    (h : ok twoSymbols .startTick) (ht : ok (begun twoSymbols) .turn) :
    Run (Guarded (LimitStep exchange openSymbols pendingSymbols defaultConfig) ok) twoSymbols
      [.startTick, .turn] rested := by
  have hfirst : LimitStep exchange openSymbols pendingSymbols defaultConfig twoSymbols .startTick
      (begun twoSymbols) := begun_step (by decide +kernel)
  have hturn : LimitStep exchange openSymbols pendingSymbols defaultConfig (begun twoSymbols) .turn
      rested := .turn _ _ _ (by decide +kernel)
  exact .snoc (.snoc (.nil _) ⟨hfirst, h⟩) ⟨hturn, ht⟩

theorem rested_within_limit :
    ((openSymbols rested.exchange).card : ℤ) ≤ defaultConfig.trading.maxOpenPositions := by
  have hsettled : Settled exchange openSymbols pendingSymbols (symbols defaultConfig)
      twoSymbols.exchange := by
    refine ⟨?_, by decide +kernel⟩
    simp [SettledReads, exchange, twoSymbols, symbols, defaultConfig, allowedSymbols,
      pendingSymbols, Dict.values]
  have hr := rested_run (SettledAtStart exchange openSymbols pendingSymbols defaultConfig) hsettled
    trivial
  exact open_limit_holds exchange_tracksPositions rfl rfl hr

/-- The pending order of the first tick fills after the entry of the second: two positions
are open where one is allowed. -/
theorem resting_order_exceeds_limit :
    ¬∀ (A : ExchangeAdapter PaperAdapter) (isOpen mayOpen : PaperAdapter → Finset Symbol)
      (config : AppConfig) (st st' : CountedState PaperAdapter) (es : List LimitEvent),
      TracksPositions A isOpen mayOpen → exposed isOpen mayOpen st.exchange = ∅ →
      st.openedThisTick = 0 → Run (LimitStep A isOpen mayOpen config) st es st' →
      ((isOpen st'.exchange).card : ℤ) ≤ config.trading.maxOpenPositions := by
  intro h
  have hr := (rested_run (fun _ _ => True) trivial trivial).unguard
  have hsecond : LimitStep exchange openSymbols pendingSymbols defaultConfig rested .startTick
      (begun rested) := begun_step (by decide +kernel)
  have hturn : LimitStep exchange openSymbols pendingSymbols defaultConfig (begun rested) .turn
      entered := .turn _ _ _ (by decide +kernel)
  have hfill : LimitStep exchange openSymbols pendingSymbols defaultConfig entered .other
      overfull := .world _ _ _ (by decide +kernel)
  have hle := h _ _ _ _ _ _ _ exchange_tracksPositions rfl rfl
    (((hr.snoc hsecond).snoc hturn).snoc hfill)
  exact absurd hle (by decide +kernel)

end FuturesBot
