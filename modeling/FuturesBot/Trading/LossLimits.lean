import FuturesBot.Control.KillSwitch
import FuturesBot.Positions.Ledger
import FuturesBot.Trading.Isolation
import FuturesBot.Trading.Movements
import FuturesBot.Trading.Trades

namespace FuturesBot
open Lib CycleRunner PositionTickService PositionManager

abbrev BookedPaper := PaperAdapter × List Movement

/-- A step of a run. Only the turns of the symbols look at decisions. -/
inductive PaperEvent
  | silent
  | turn (o : DecisionSources) (snapshot : MarketSnapshot)

/-- One step of the pipeline on the booked simulation. -/
inductive PaperStep (config : AppConfig) :
    PipelineState BookedPaper → PaperEvent → PipelineState BookedPaper → Prop
  | clock {st : PipelineState BookedPaper} (now : Timestamp) (h : st.session.now ≤ now) :
      PaperStep config st .silent
        { st with
          exchange := ({ st.exchange.1 with now := now }, st.exchange.2)
          session := { st.session with now := now } }
  | nextTick {st : PipelineState BookedPaper} :
      PaperStep config st .silent { st with openedThisTick := 0 }
  -- Registrations and moved levels, which send no order.
  | registered {st : PipelineState BookedPaper} (m : PositionManager) :
      PaperStep config st .silent { st with manager := m }
  -- Market data, audit rows, commits and rollbacks.
  | stored {st : PipelineState BookedPaper} (s : Session) (h : st.session.ClosesNoTrade s) :
      PaperStep config st .silent { st with session := s }
  | exit {st : PipelineState BookedPaper} {i : CycleInputs} {s : Symbol} {o : Option TickResult}
      {d : Desk BookedPaper} (h : tickSymbol PaperAdapter.booked i s st.toDesk = (o, d)) :
      PaperStep config st .silent { st with toDesk := d }
  | invalidation {st : PipelineState BookedPaper} {s : Symbol} {mark : Amount}
      {book : Option (Amount × Amount)} {oid : ClientOrderId}
      {r : Except PyError (Option TickResult)} {d : Desk BookedPaper}
      (h : triggerSetupInvalidation PaperAdapter.booked s mark book oid st.toDesk = (r, d)) :
      PaperStep config st .silent { st with toDesk := d }
  | turn {st : PipelineState BookedPaper} (o : DecisionSources) (reliable : Bool)
      (snapshot : MarketSnapshot) :
      PaperStep config st (.turn o snapshot)
        (processNested PaperAdapter.booked config o reliable snapshot st)

/-- No run of the pipeline ever closes a stored trade. -/
theorem PaperStep.closesNoTrade (h : PaperStep config st e st') (t : TradeRow)
    (ht : t ∈ st'.session.storedTrades) : t ∈ st.session.storedTrades ∨ t.status = .open := by
  cases h with
  | clock now h => exact .inl ht
  | nextTick | registered m | exit h | invalidation h => exact .inl ht
  | stored s h => exact h.2 t ht
  | turn o reliable snapshot =>
    exact (Session.ClosesNoTrade.turnWrites.processNested _ _ _ _ _ _).2 t ht

/-- So the losses that the risk engine is told stay at zero, whatever has been
realised. -/
theorem losses_never_recorded (h₀ : ∀ t ∈ st.session.storedTrades, t.status = .open)
    (hr : Run (PaperStep config) st es st') :
    st'.session.working.getLossTotals st'.session.now = (0, 0) := by
  have hopen : ∀ t ∈ st'.session.storedTrades, t.status = .open := by
    refine hr.invariant (I := fun st => ∀ t ∈ st.session.storedTrades, t.status = .open) h₀ ?_
    intro st e st' h hs t ht
    rcases hs.closesNoTrade t ht with ht | ho
    · exact h t ht
    · exact ho
  exact Session.getLossTotals_of_open (fun t ht => hopen t (List.mem_append_left _ ht)) _

/-- While a limit is reached nobody proposes an entry. -/
def NoProposalAtLimit (config : AppConfig) (st : PipelineState BookedPaper) : PaperEvent → Prop
  | .silent => True
  | .turn o snapshot => LimitReached config st.session.now st.exchange.2 → ¬Proposes o snapshot

/-- The session and the simulation read the same clock, and the limits have bound. -/
structure BoundSoFar (config : AppConfig) (st : PipelineState BookedPaper) : Prop where
  clock : st.session.now = st.exchange.1.now
  bound : LimitsBind config st.exchange.2

theorem BoundSoFar.closes (h : BoundSoFar config st) (hx : OnlyCloses st.exchange d.exchange) :
    BoundSoFar config { st with toDesk := d } :=
  ⟨h.clock.trans hx.1.symm, h.bound.closes hx⟩

theorem BoundSoFar.turn (h : BoundSoFar config st)
    (hok : LimitReached config st.session.now st.exchange.2 → ¬Proposes o snapshot) :
    BoundSoFar config (processNested PaperAdapter.booked config o reliable snapshot st) := by
  have hnow := (Session.ClosesNoTrade.turnWrites.processNested PaperAdapter.booked config o reliable
    snapshot st).1
  by_cases hl : LimitReached config st.session.now st.exchange.2
  · have hx : (processNested PaperAdapter.booked config o reliable snapshot st).exchange =
        st.exchange := processNested_unproposed (hok hl)
    exact ⟨by rw [hnow, hx, h.clock], by rw [hx]; exact h.bound⟩
  · rw [h.clock] at hl
    have hone : EntersOnce PaperAdapter.booked (fun x => (x.1.now, x.2)) st.exchange
        (processNested PaperAdapter.booked config o reliable snapshot st).exchange :=
      (processNested_sent (PaperAdapter.booked_untouched.map (fun x => (x.1.now, x.2)))).entersOnce
    rcases hone with hx | ⟨y, request, hy, hr, hx⟩
    · obtain ⟨hn, hb⟩ := Prod.mk.inj hx
      exact ⟨by rw [hnow, hn, h.clock], by rw [hb]; exact h.bound⟩
    · obtain ⟨hn, hb⟩ := Prod.mk.inj hx
      refine ⟨?_, by rw [hb]; exact h.bound.entry hy hr hl⟩
      rw [hnow, hn, PaperAdapter.booked_placeOrder, PaperAdapter.placeOrder_now, h.clock]
      exact (Prod.mk.inj hy).1.symm

theorem BoundSoFar.step (h : BoundSoFar config st)
    (hs : Guarded (PaperStep config) (NoProposalAtLimit config) st e st') :
    BoundSoFar config st' := by
  obtain ⟨hs, hok⟩ := hs
  cases hs with
  | clock now hn => exact ⟨rfl, h.bound⟩
  | nextTick | registered m => exact ⟨h.clock, h.bound⟩
  | stored s hc => exact ⟨hc.1.trans h.clock, h.bound⟩
  | exit ht => exact h.closes (PaperAdapter.booked_exits.tickSymbol ht)
  | invalidation ht => exact h.closes (PaperAdapter.booked_exits.triggerSetupInvalidation ht)
  | turn o reliable snapshot => exact h.turn hok

/-- The limits bind in every run in which nothing is proposed while one is reached. -/
theorem loss_limits_bind (h₀ : st.exchange.2 = []) (hc : st.session.now = st.exchange.1.now)
    (hr : Run (Guarded (PaperStep config) (NoProposalAtLimit config)) st es st') :
    LimitsBind config st'.exchange.2 := by
  have hb : BoundSoFar config st := ⟨hc, by rw [h₀]; exact .nil⟩
  exact (hr.invariant (I := BoundSoFar config) hb (fun _ _ _ h hs => h.step hs)).bound

/-- The last movement is an entry that came after a limit was reached. -/
def enteredAtLimit (config : AppConfig) (book : List Movement) : Bool :=
  match book.getLast? with
  | some (.entry time _) => LimitReached config time book.dropLast
  | _ => false

theorem not_limitsBind (h : enteredAtLimit config book) : ¬LimitsBind config book := by
  intro hb
  unfold enteredAtLimit at h
  split at h
  · rename_i time request hl
    have hbook := List.dropLast_append_getLast? _ (Option.mem_def.mpr hl)
    have hn := hb book.dropLast (.entry time request) [] hbook.symm
    exact hn (of_decide_eq_true h)
  · cases h

/-- The sample decision at the leverage limit of the simulation. -/
def tenfoldDecision : ModelDecision :=
  { sampleDecision with leverage := 10, valid := by decide +kernel }

/-- A model that proposes it, under this identifier. -/
def tenfoldSources (oid : ClientOrderId) : DecisionSources where
  analyse _ := .ok ()
  request _ := .ok (some { tenfoldDecision with decisionId := oid, valid := tenfoldDecision.valid })
  aggregate _ d := .ok d.decision

/-- A fresh worker with the initial balance of the configuration. -/
def freshRun : PipelineState BookedPaper where
  manager := .idle
  exchange := ({ balanceUsdt := 100 }, [])
  session := (idleWithAtr 2).session

def turnOf (o : DecisionSources) (st : PipelineState BookedPaper) : PipelineState BookedPaper :=
  processNested PaperAdapter.booked defaultConfig o true sampleSnapshot st

def enteredRun : PipelineState BookedPaper := turnOf (tenfoldSources "first") freshRun

/-- The position is closed at a price that has all but vanished. -/
def crashedRun : PipelineState BookedPaper :=
  { enteredRun with
    toDesk := (tickSymbol PaperAdapter.booked (cycleAt 1 "stop") "BTCUSDT" enteredRun.toDesk).2 }

def crashed : PipelineState BookedPaper := { crashedRun with openedThisTick := 0 }

theorem crashed_run (ok : PipelineState BookedPaper → PaperEvent → Prop)
    (h : ok freshRun (.turn (tenfoldSources "first") sampleSnapshot)) (hs : ∀ st, ok st .silent) :
    Run (Guarded (PaperStep defaultConfig) ok) freshRun
      [.turn (tenfoldSources "first") sampleSnapshot, .silent, .silent] crashed := by
  have hturn : PaperStep defaultConfig freshRun (.turn (tenfoldSources "first") sampleSnapshot)
      enteredRun := .turn _ true _
  have hexit : PaperStep defaultConfig enteredRun .silent crashedRun :=
    .exit (i := cycleAt 1 "stop") (s := "BTCUSDT") rfl
  have hnext : PaperStep defaultConfig crashedRun .silent crashed := .nextTick
  exact .snoc (.snoc (.snoc (.nil _) ⟨hturn, h⟩) ⟨hexit, hs _⟩) ⟨hnext, hs _⟩

theorem idle_after_crash : LimitsBind defaultConfig (turnOf idleSources crashed).exchange.2 := by
  have hfirst : ¬LimitReached defaultConfig 0 [] := by decide +kernel
  have hr := crashed_run (NoProposalAtLimit defaultConfig) (fun hl => absurd hl hfirst)
    (fun _ => trivial)
  refine loss_limits_bind rfl rfl (hr.snoc ⟨.turn idleSources true sampleSnapshot, fun _ => ?_⟩)
  intro h
  obtain ⟨d, action, ha, _⟩ := h
  cases ha

/-- Ninety-nine percent of the initial balance are lost, and the next entry is sent. -/
theorem limits_do_not_bind :
    ¬∀ (config : AppConfig) (st st' : PipelineState BookedPaper) (es : List PaperEvent),
      st.exchange.2 = [] → st.session.now = st.exchange.1.now →
      (∀ t ∈ st.session.storedTrades, t.status = .open) →
      Run (PaperStep config) st es st' → LimitsBind config st'.exchange.2 := by
  intro h
  have hr := (crashed_run (fun _ _ => True) trivial (fun _ => trivial)).unguard
  have hb := h _ _ _ _ rfl rfl (by simp [freshRun, idleWithAtr, Session.storedTrades])
    (hr.snoc (.turn (tenfoldSources "second") true sampleSnapshot))
  have hentered : enteredAtLimit defaultConfig
      (turnOf (tenfoldSources "second") crashed).exchange.2 := by decide +kernel
  exact not_limitsBind hentered hb

end FuturesBot
