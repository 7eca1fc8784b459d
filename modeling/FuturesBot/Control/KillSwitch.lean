import FuturesBot.Execution.Exposure
import FuturesBot.Lib.LockedLog
import FuturesBot.Trading.Cycle
import FuturesBot.Trading.Entries

namespace FuturesBot
open Lib

/-- Who may hold the lock on the row of the run: the worker, or one of the requests
to the kill switch. -/
inductive Party
  | worker
  | request (r : ℕ)

/-- The two checks of a tick that may trigger SAFE_MODE. -/
inductive Guard
  | connectionHealth | reconciliation

/-- Where the worker stands. Between two of these points it touches nothing that a
request can see. -/
inductive WorkerPoint
  | loopTop
  | checking (g : Guard)
  | triggering (g : Guard)
  | locked (g : Guard)
  | pipeline (rest : List MarketSnapshot)
  | processing (snapshot : MarketSnapshot) (rest : List MarketSnapshot)
  | stopped

/-- A running worker and the database rows that it shares with the requests. -/
structure System (σ : Type u) where
  rows : List BotStateRow
  status : RunStatus := .running
  lock : Option Party := none
  point : WorkerPoint := .loopTop
  worker : Worker (σ × List OrderRequest)
  opened : ℤ := 0

namespace System

def view (s : System σ) : LockedView := ⟨some s.status, latestState s.rows⟩

/-- The worker after a read of `bot_state`. -/
def synced (s : System σ) : Worker (σ × List OrderRequest) :=
  { s.worker with toSupervisor := s.worker.syncStateFromDb (.read (latestState s.rows)) }

/-- The state in which a symbol leaves the pipeline. -/
def processed (A : ExchangeAdapter σ) (config : AppConfig) (o : DecisionSources) (reliable : Bool)
    (snapshot : MarketSnapshot) (s : System σ) : PipelineState (σ × List OrderRequest) :=
  CycleRunner.processNested A.logged config o reliable snapshot
    ⟨⟨s.worker.toDesk, s.worker.session⟩, s.opened⟩

/-- The worker's trigger under the lock: the row it commits, if it is admitted, and
its own state afterwards. -/
def guarded (s : System σ) : System σ :=
  { s with
    rows := match EmergencyStopService.admission s.view .safeMode (some [.active]) with
      | .ok current => s.rows ++ [EmergencyStopService.newRow current .safeMode]
      | .error _ => s.rows
    lock := none
    worker := { s.worker with toSupervisor := s.worker.triggerSafeMode s.view } }

end System

/-- Where a tick goes on after a check. -/
def Guard.next : Guard → List MarketSnapshot → WorkerPoint
  | .connectionHealth, _ => .checking .reconciliation
  | .reconciliation, snapshots => .pipeline snapshots

inductive SystemEvent
  | silent
  | killed (r : ℕ)
  | orders (symbol : Symbol) (requests : List OrderRequest)

/-- One atomic step. `world` is the market data and the exits of a tick, which change
the desk, the caches and the tables but no row of `bot_state`. -/
inductive SystemStep (A : ExchangeAdapter σ) : System σ → SystemEvent → System σ → Prop
  | requestLock {s : System σ} (r : ℕ) (h : s.lock = none) :
      SystemStep A s .silent { s with lock := some (.request r) }
  | requestCommit {s : System σ} {r : ℕ} {current : BotState} (h : s.lock = some (.request r))
      (ha : EmergencyStopService.admission s.view .killSwitchTriggered none = .ok current) :
      SystemStep A s (.killed r)
        { s with
          rows := s.rows ++ [EmergencyStopService.newRow current .killSwitchTriggered]
          lock := none }
  | requestReject {s : System σ} {r : ℕ} (h : s.lock = some (.request r)) :
      SystemStep A s .silent { s with lock := none }
  | world {s : System σ} (d : Desk (σ × List OrderRequest)) (session : Session)
      (cache : MarketDataCache) :
      SystemStep A s .silent
        { s with worker := { s.worker with toDesk := d, session := session, cache := cache } }
  | wake {s : System σ} (h : s.point = .loopTop) :
      SystemStep A s .silent
        { s with
          worker := s.synced
          point := if s.synced.botState.isRunning then .checking .connectionHealth else .loopTop }
  | clean {s : System σ} {g : Guard} (snapshots : List MarketSnapshot) (h : s.point = .checking g) :
      SystemStep A s .silent { s with point := g.next snapshots }
  | findings {s : System σ} {g : Guard} (h : s.point = .checking g)
      (ha : s.worker.botState = .active) :
      SystemStep A s .silent { s with point := .triggering g }
  | guardLock {s : System σ} {g : Guard} (h : s.point = .triggering g) (hl : s.lock = none) :
      SystemStep A s .silent { s with point := .locked g, lock := some .worker }
  | guardDecide {s : System σ} {g : Guard} (snapshots : List MarketSnapshot)
      (h : s.point = .locked g) (hl : s.lock = some .worker) :
      SystemStep A s .silent { s.guarded with point := g.next snapshots }
  -- Without the lock nothing has been read; with it the commit may fail, or a read.
  | lockFails {s : System σ} {g : Guard} (snapshots : List MarketSnapshot)
      (h : s.point = .triggering g) :
      SystemStep A s .silent
        { s with
          worker := { s.worker with toSupervisor := s.worker.attemptSafeMode .failed }
          point := g.next snapshots }
  | guardFails {s : System σ} {g : Guard} (read : TriggerRead) (snapshots : List MarketSnapshot)
      (h : s.point = .locked g) (hl : s.lock = some .worker)
      (hread : read = .failed ∨ read = .view s.view false) :
      SystemStep A s .silent
        { s with
          lock := none
          worker := { s.worker with toSupervisor := s.worker.attemptSafeMode read }
          point := g.next snapshots }
  | pipelineStopped {s : System σ} {snapshot : MarketSnapshot} {rest : List MarketSnapshot}
      (h : s.point = .pipeline (snapshot :: rest)) (hr : ¬s.synced.botState.isRunning) :
      SystemStep A s .silent { s with worker := s.synced, point := .loopTop }
  | symbolSkipped {s : System σ} {snapshot : MarketSnapshot} {rest : List MarketSnapshot}
      (h : s.point = .pipeline (snapshot :: rest)) (hr : s.synced.botState.isRunning) :
      SystemStep A s .silent { s with worker := s.synced, point := .pipeline rest }
  | symbolEntered {s : System σ} {snapshot : MarketSnapshot} {rest : List MarketSnapshot}
      (h : s.point = .pipeline (snapshot :: rest)) (hr : s.synced.botState.canTrade) :
      SystemStep A s .silent { s with worker := s.synced, point := .processing snapshot rest }
  | process {s : System σ} {snapshot : MarketSnapshot} {rest : List MarketSnapshot}
      (config : AppConfig) (o : DecisionSources) (reliable : Bool)
      (h : s.point = .processing snapshot rest) :
      SystemStep A s
        (.orders snapshot.symbol ((s.processed A config o reliable snapshot).exchange.2.drop
          s.worker.exchange.2.length))
        { s with
          worker := { s.worker with
            toDesk := (s.processed A config o reliable snapshot).toDesk
            session := (s.processed A config o reliable snapshot).session }
          opened := (s.processed A config o reliable snapshot).openedThisTick
          point := .pipeline rest }
  | pipelineEnd {s : System σ} (h : s.point = .pipeline []) :
      SystemStep A s .silent { s with point := .loopTop, opened := 0 }
  | shutdown {s : System σ} (h : s.lock = none) :
      SystemStep A s .silent { s with status := .stopped, point := .stopped }

namespace System

/-- What a party under the lock may append. -/
def Admits : Party → Option BotStateRow → BotStateRow → Prop
  | .worker, last, row => ∃ status current,
      EmergencyStopService.admission ⟨some status, last.map (·.state)⟩ .safeMode (some [.active]) =
        .ok current ∧ row = EmergencyStopService.newRow current .safeMode
  | .request _, last, row => ∃ status current,
      EmergencyStopService.admission ⟨some status, last.map (·.state)⟩ .killSwitchTriggered none =
        .ok current ∧ row = EmergencyStopService.newRow current .killSwitchTriggered

def log (s : System σ) : LockedLog Party BotStateRow := ⟨s.rows, s.lock⟩

/-- The states of a run, as the worker and the requests write them, are a log under
a lock. -/
theorem step_log (hs : SystemStep A s e s') : LockedLog.Step Admits s.log s'.log := by
  cases hs with
  | requestLock r h => exact .acquire (l := s.log) (.request r) h
  | requestCommit h ha => exact .append (l := s.log) h ⟨_, _, ha, rfl⟩
  | requestReject h => exact .release (l := s.log) h
  | guardLock h hl => exact .acquire (l := s.log) .worker hl
  | guardFails read snapshots h hl => exact .release (l := s.log) hl
  | guardDecide snapshots h hl =>
    cases ha : EmergencyStopService.admission s.view .safeMode (some [.active]) with
    | ok current =>
      have hrows : s.guarded.rows = s.rows ++ [EmergencyStopService.newRow current .safeMode] := by
        simp only [guarded, ha]
      simp only [log, hrows]
      exact .append (l := s.log) hl ⟨_, _, ha, rfl⟩
    | error e =>
      have hrows : s.guarded.rows = s.rows := by simp only [guarded, ha]
      simp only [log, hrows]
      exact .release (l := s.log) hl
  | _ => exact .idle s.log

def IsKill (row : BotStateRow) : Prop := row.state = BotState.killSwitchTriggered.value

/-- Nobody leaves the triggered kill switch by the lock. -/
theorem kill_final : LockedLog.Final Admits IsKill := by
  intro i row row' hk ha
  have hres : resolvePersistedState (some row.state) = some .killSwitchTriggered := by
    rw [hk]
    exact BotState.ofValue_value _
  cases i with
  | worker =>
    obtain ⟨status, current, hadm, _⟩ := ha
    obtain ⟨_, hc, hreq, _⟩ := EmergencyStopService.admission_ok hadm
    cases hres.symm.trans hc
    exact absurd (hreq _ rfl) (by decide)
  | request r =>
    obtain ⟨status, current, hadm, _⟩ := ha
    obtain ⟨_, hc, _, ht⟩ := EmergencyStopService.admission_ok hadm
    cases hres.symm.trans hc
    exact absurd ht (by decide)

/-- A worker as it starts its loop. Its run has no row of `bot_state` yet, or just the
one with the state that the predecessor was stopped in. -/
def Started (s : System σ) : Prop :=
  s.point = .loopTop ∧ s.lock = none ∧ (s.rows = [] ∨ ∃ row, s.rows = [row])

/-- The kill switch has been committed for the run. -/
def Killed (s : System σ) : Prop := ∃ row ∈ s.rows, IsKill row

/-- The committed kill switch is the state that every read finds. -/
def KillLatest (s : System σ) : Prop := ∃ row, s.rows.getLast? = some row ∧ IsKill row

theorem killLatest_of_killed (h₀ : Started s₀) (hr : Run (SystemStep A) s₀ es s) (hk : Killed s) :
    KillLatest s := by
  have hl : LockedLog.FinalIsLast IsKill s.log := by
    refine hr.invariant (I := fun s => LockedLog.FinalIsLast IsKill s.log) ?_ ?_
    · intro row hm _
      rcases h₀.2.2 with h | ⟨row', h⟩
      · rw [log, h] at hm
        cases hm
      · rw [log, h] at hm ⊢
        rw [List.mem_singleton.mp hm]
        rfl
    · intro s e t h hs
      exact h.step kill_final (step_log hs)
  obtain ⟨row, hm, hk⟩ := hk
  exact ⟨row, hl row hm hk, hk⟩

theorem KillLatest.step (h : KillLatest s) (hs : SystemStep A s e s') : KillLatest s' := by
  obtain ⟨row, hl, hk⟩ := h
  have hrows : s'.rows = s.rows := (step_log hs).entries_of_final (l := s.log) kill_final hl hk
  exact ⟨row, by rw [hrows]; exact hl, hk⟩

/-- Every read of the state after the commit stops the worker. -/
theorem KillLatest.synced_stopped (h : KillLatest s) :
    s.synced.botState = .killSwitchTriggered := by
  obtain ⟨row, hl, hk⟩ := h
  have hv : BotState.ofValue row.state = some .killSwitchTriggered := by
    rw [hk]
    exact BotState.ofValue_value _
  have hs : latestState s.rows = some row.state := by simp [latestState, hl]
  simp only [synced, Supervisor.syncStateFromDb, hs, hv]

end System

/-- The orders of a run, each with the symbol whose turn placed it. -/
def ordersOf (es : List SystemEvent) : List (Symbol × OrderRequest) :=
  es.flatMap fun
    | .orders symbol requests => requests.map (symbol, ·)
    | _ => []

@[simp] theorem ordersOf_append (es es' : List SystemEvent) :
    ordersOf (es ++ es') = ordersOf es ++ ordersOf es' := List.flatMap_append

/-- A symbol has passed its check, and its turn is not over. -/
def WorkerPoint.InTurn : WorkerPoint → Prop
  | .processing _ _ => True
  | _ => False

theorem Guard.next_not_inTurn (g : Guard) (snapshots : List MarketSnapshot) :
    ¬(g.next snapshots).InTurn := by
  cases g <;> exact id

/-- The turn that a symbol is in ends with at most one order. -/
def EndsTurn (point : WorkerPoint) (orders : List (Symbol × OrderRequest)) : Prop :=
  ∃ snapshot rest, point = .processing snapshot rest ∧
    (orders = [] ∨ ∃ request, orders = [(snapshot.symbol, request)])

namespace System

/-- A step after the commit either places nothing and begins no turn, or ends one. -/
theorem KillLatest.step_orders (h : KillLatest s) (hs : SystemStep A s e s') :
    (ordersOf [e] = [] ∧ (s'.point = s.point ∨ ¬s'.point.InTurn)) ∨
    (EndsTurn s.point (ordersOf [e]) ∧ ¬s'.point.InTurn) := by
  cases hs with
  | requestLock | requestCommit | requestReject | world => exact .inl ⟨rfl, .inl rfl⟩
  | findings | guardLock | pipelineStopped | symbolSkipped | pipelineEnd | shutdown =>
    exact .inl ⟨rfl, .inr id⟩
  | clean snapshots | guardDecide snapshots | lockFails snapshots | guardFails _ snapshots =>
    exact .inl ⟨rfl, .inr (Guard.next_not_inTurn _ snapshots)⟩
  | wake =>
    refine .inl ⟨rfl, .inr ?_⟩
    dsimp only
    split <;> exact id
  | symbolEntered _ hr =>
    rw [h.synced_stopped] at hr
    cases hr
  | @process snapshot rest config o reliable hp =>
    refine .inr ⟨⟨snapshot, rest, hp, ?_⟩, id⟩
    have ho : AtMostOneOrder s.worker.exchange
        (s.processed A config o reliable snapshot).exchange :=
      CycleRunner.processNested_orders
    rcases ho with he | ⟨request, he⟩
    · exact .inl (by rw [he, List.drop_length]; rfl)
    · exact .inr ⟨request, by rw [he, List.drop_left]; rfl⟩

/-- Once the kill switch is committed, whatever the worker still does, at most one
order is placed, and only by the symbol that was then in its turn. -/
theorem kill_switch_bounds_entries (h₀ : Started s₀) (hr₀ : Run (SystemStep A) s₀ es₀ s)
    (hk : Killed s) (hr : Run (SystemStep A) s es s') :
    ordersOf es = [] ∨ ∃ snapshot rest request,
      s.point = .processing snapshot rest ∧ ordersOf es = [(snapshot.symbol, request)] := by
  have hi : KillLatest s' ∧
      ((ordersOf es = [] ∧ (s'.point = s.point ∨ ¬s'.point.InTurn)) ∨
        (EndsTurn s.point (ordersOf es) ∧ ¬s'.point.InTurn)) := by
    refine hr.invariant_trace (I := fun es s' => KillLatest s' ∧
      ((ordersOf es = [] ∧ (s'.point = s.point ∨ ¬s'.point.InTurn)) ∨
        (EndsTurn s.point (ordersOf es) ∧ ¬s'.point.InTurn)))
      ⟨killLatest_of_killed h₀ hr₀ hk, .inl ⟨rfl, .inl rfl⟩⟩ ?_
    rintro es t e t' ⟨hl, hb⟩ hs
    refine ⟨hl.step hs, ?_⟩
    rw [ordersOf_append]
    rcases hl.step_orders hs with ⟨he, hp⟩ | ⟨ht, hp⟩
    · rw [he, List.append_nil]
      rcases hb with ⟨ho, hb⟩ | ⟨ho, hb⟩
      · refine .inl ⟨ho, ?_⟩
        rcases hp with hp | hp
        · rwa [hp]
        · exact .inr hp
      · refine .inr ⟨ho, ?_⟩
        rcases hp with hp | hp
        · rwa [hp]
        · exact hp
    · obtain ⟨snapshot, rest, hpoint, hone⟩ := ht
      have hin : t.point.InTurn := by
        rw [hpoint]
        trivial
      rcases hb with ⟨ho, hb | hb⟩ | ⟨_, hb⟩
      · rw [ho, List.nil_append]
        exact .inr ⟨⟨snapshot, rest, by rw [← hb, hpoint], hone⟩, hp⟩
      · exact absurd hin hb
      · exact absurd hin hb
  rcases hi.2 with ⟨ho, _⟩ | ⟨⟨snapshot, rest, hp, ho | ⟨request, ho⟩⟩, _⟩
  · exact .inl ho
  · exact .inl ho
  · exact .inr ⟨snapshot, rest, request, hp, ho⟩

end System

/-- The book around the entry of the sample decision. -/
def sampleSnapshot : MarketSnapshot where
  symbol := "BTCUSDT"
  bid := 999 / 10
  ask := 1001 / 10
  lastPrice := 100
  fundingRate := some 0
  accountBalanceUsdt := 1000
  openPositionsCount := 0
  activeOrdersCount := 0
  latencyMs := 0
  clockSkewMs := 0
  valid := by norm_num [MarketSnapshotFields.Valid, allowedSymbols]

/-- A model that always proposes the sample decision, and is believed. -/
def eagerSources : DecisionSources where
  analyse _ := .ok ()
  request _ := .ok (some sampleDecision)
  aggregate _ d := .ok d.decision

/-- A fresh worker on the simulated exchange. -/
def bootSystem : System PaperAdapter where
  rows := []
  worker :=
    { manager := .idle
      exchange := ({}, [])
      session := (idleWithAtr 2).session }

/-- The same worker further on; nothing has happened yet. -/
def bootSystemAt (point : WorkerPoint) : System PaperAdapter := { bootSystem with point := point }

def killedInTurn : System PaperAdapter :=
  { bootSystemAt (.processing sampleSnapshot []) with
    rows := [EmergencyStopService.newRow .active .killSwitchTriggered] }

theorem killedInTurn_run : Run (SystemStep PaperAdapter.exchange) bootSystem
    [.silent, .silent, .silent, .silent, .silent, .killed 0] killedInTurn := by
  have hwake : SystemStep PaperAdapter.exchange bootSystem .silent
      (bootSystemAt (.checking .connectionHealth)) := .wake rfl
  have hhealth : SystemStep PaperAdapter.exchange (bootSystemAt (.checking .connectionHealth))
      .silent (bootSystemAt (.checking .reconciliation)) := .clean (g := .connectionHealth) [] rfl
  have hgate : SystemStep PaperAdapter.exchange (bootSystemAt (.checking .reconciliation)) .silent
      (bootSystemAt (.pipeline [sampleSnapshot])) :=
    .clean (g := .reconciliation) [sampleSnapshot] rfl
  have henter : SystemStep PaperAdapter.exchange (bootSystemAt (.pipeline [sampleSnapshot])) .silent
      (bootSystemAt (.processing sampleSnapshot [])) := .symbolEntered rfl rfl
  exact .snoc (.snoc (.snoc (.snoc (.snoc (.snoc (.nil _) hwake) hhealth) hgate) henter)
    (.requestLock 0 rfl)) (.requestCommit rfl rfl)

/-- The bound is attained: a symbol in its turn does not see the commit. -/
theorem one_order_after_commit : ∃ (s s' : System PaperAdapter) (es₀ es : List SystemEvent),
    Run (SystemStep PaperAdapter.exchange) bootSystem es₀ s ∧ s.Killed ∧
    Run (SystemStep PaperAdapter.exchange) s es s' ∧ ∃ snapshot rest request,
      s.point = .processing snapshot rest ∧ ordersOf es = [(snapshot.symbol, request)] := by
  have hk : killedInTurn.Killed := ⟨_, List.mem_singleton.mpr rfl, rfl⟩
  have hr := Run.snoc (.nil killedInTurn) (SystemStep.process (A := PaperAdapter.exchange)
    defaultConfig eagerSources true rfl)
  refine ⟨_, _, _, _, killedInTurn_run, hk, hr, ?_⟩
  refine (System.kill_switch_bounds_entries ⟨rfl, rfl, .inl rfl⟩ killedInTurn_run hk
    hr).resolve_left ?_
  have hone : (killedInTurn.processed PaperAdapter.exchange defaultConfig eagerSources true
      sampleSnapshot).exchange.2.length = 1 := by decide +kernel
  intro hnone
  have hlen := congrArg List.length hnone
  have hsum := List.length_drop (i := killedInTurn.worker.exchange.2.length)
    (l := (killedInTurn.processed PaperAdapter.exchange defaultConfig eagerSources true
      sampleSnapshot).exchange.2)
  rw [hone] at hsum
  simp only [List.nil_append, ordersOf, List.flatMap_cons, List.flatMap_nil, List.append_nil,
    List.length_map, List.length_nil] at hlen
  exact absurd (hsum.symm.trans hlen) (by decide)

end FuturesBot
