import FuturesBot.Execution.Exposure
import FuturesBot.Lib.Runs
import FuturesBot.Reconciliation.Orders

namespace FuturesBot
open Lib ExecutionEngine

/-- A plan as the execution engine receives it. -/
structure EntryPlan where
  decision : ModelDecision
  validation : RiskValidationResult
  estimate : Option SlippageEstimate

/-- Neither the exchange nor the database has another order or position than before. -/
structure SameRecords (st st' : TradingState PaperAdapter) : Prop where
  held : st'.exchange.positions = st.exchange.positions
  placed : st'.exchange.orders = st.exchange.orders
  positions : st'.session.working.positions = st.session.working.positions
  orders : st'.session.working.orders = st.session.working.orders
  ordersOfOtherRuns :
    st'.session.working.ordersOfOtherRuns = st.session.working.ordersOfOtherRuns

/-- A MARKET entry that is answered as filled. What comes after it, until the next
plan, is neither an order nor a position. -/
def Entered (s : ExecutionSettings) (st : TradingState PaperAdapter) (p : EntryPlan)
    (st' : TradingState PaperAdapter) : Prop :=
  p.decision.entryType = .market ∧ ∃ result st₁,
    executeApprovedPlan PaperAdapter.exchange s p.decision p.validation p.estimate st =
      (.ok result, st₁) ∧
    result.orderResult.status = .filled ∧ SameRecords st₁ st'

/-- The identifier of the plan already has an order. -/
def Replayed (db : Database) (p : EntryPlan) : Prop :=
  db.getByClientOrderId p.decision.decisionId ≠ none

namespace ExecutionEngine

/-- A fill that is answered has its open position stored. -/
theorem recordEntry_stored
    (h : recordEntry s d adjusted atr1h estimate result st = (.ok answer, st'))
    (hf : answer.orderResult.status = .filled) :
    ∃ row, row.status = .open ∧
      st'.session.working.positions = st.session.working.positions ++ [row] := by
  unfold recordEntry at h
  dsimp only at h
  split at h
  · rename_i hn
    cases h
    exact absurd hf hn
  · split at h
    · cases h
    · split at h
      · cases h
      · cases h
        exact ⟨_, rfl, rfl⟩

/-- A plan whose identifier is new stores an open position; any other changes nothing. -/
theorem executeApprovedPlan_stored
    (h : executeApprovedPlan A s d r estimate st = (.ok answer, st'))
    (hf : answer.orderResult.status = .filled) :
    (st.session.working.getByClientOrderId d.decisionId ≠ none ∧ st' = st) ∨
    (st.session.working.getByClientOrderId d.decisionId = none ∧ ∃ row, row.status = .open ∧
      st'.session.working.positions = st.session.working.positions ++ [row]) := by
  unfold executeApprovedPlan at h
  split at h
  · rename_i row hrow
    have hst : st' = st := (congrArg Prod.snd h).symm
    exact .inl ⟨by simp [hrow], hst⟩
  · rename_i hnone
    refine .inr ⟨hnone, ?_⟩
    split at h
    · cases h
    · split at h
      · cases h
      · split at h
        · cases h
        · obtain ⟨row, ho, hp⟩ := recordEntry_stored h hf
          exact ⟨row, ho, hp⟩

end ExecutionEngine

namespace SameRecords

theorem refl (st : TradingState PaperAdapter) : SameRecords st st := ⟨rfl, rfl, rfl, rfl, rfl⟩

theorem trans (h : SameRecords st st') (h' : SameRecords st' st'') : SameRecords st st'' :=
  ⟨h'.held.trans h.held, h'.placed.trans h.placed, h'.positions.trans h.positions,
    h'.orders.trans h.orders, h'.ordersOfOtherRuns.trans h.ordersOfOtherRuns⟩

theorem getByClientOrderId (h : SameRecords st st') (oid : ClientOrderId) :
    st'.session.working.getByClientOrderId oid = st.session.working.getByClientOrderId oid := by
  simp only [Database.getByClientOrderId, h.orders, h.ordersOfOtherRuns]

theorem listOpenPositions (h : SameRecords st st') :
    st'.session.working.listOpenPositions = st.session.working.listOpenPositions := by
  simp only [Database.listOpenPositions, h.positions]

theorem listByStatus (h : SameRecords st st') (status : OrderStatus) (limit : ℕ) :
    st'.session.working.listByStatus status limit =
      st.session.working.listByStatus status limit := by
  simp only [Database.listByStatus, h.orders]

theorem getOpenOrders (h : SameRecords st st') (symbol : Symbol) :
    st'.exchange.getOpenOrders symbol = st.exchange.getOpenOrders symbol := by
  simp only [PaperAdapter.getOpenOrders, h.placed]

end SameRecords

/-- Either every plan repeated an order of the start, or some position is open. -/
def EntriesSoFar (st₀ : TradingState PaperAdapter) (ps : List EntryPlan)
    (st : TradingState PaperAdapter) : Prop :=
  ((∀ p ∈ ps, Replayed st₀.session.working p) ∧ SameRecords st₀ st) ∨
  ((∃ p ∈ ps, ¬Replayed st₀.session.working p) ∧ st.session.working.listOpenPositions ≠ [])

theorem EntriesSoFar.step (h : EntriesSoFar st₀ ps st) (he : Entered s st p st') :
    EntriesSoFar st₀ (ps ++ [p]) st' := by
  obtain ⟨_, answer, st₁, hx, hf, hsame⟩ := he
  have hopen : ∀ row : PositionRow, row ∈ st'.session.working.positions → row.status = .open →
      st'.session.working.listOpenPositions ≠ [] := by
    intro row hm ho hnil
    have hmem : row ∈ st'.session.working.listOpenPositions :=
      List.mem_filter.mpr ⟨hm, decide_eq_true ho⟩
    rw [hnil] at hmem
    cases hmem
  rcases executeApprovedPlan_stored hx hf with ⟨hknown, rfl⟩ | ⟨hnew, row, ho, hp⟩
  · rcases h with ⟨hall, hst⟩ | ⟨⟨q, hq, hnq⟩, hne⟩
    · have hrep : Replayed st₀.session.working p := by
        rw [Replayed, ← hst.getByClientOrderId]
        exact hknown
      refine .inl ⟨?_, hst.trans hsame⟩
      intro q hq
      rcases List.mem_append.mp hq with hq | hq
      · exact hall q hq
      · rw [List.mem_singleton.mp hq]
        exact hrep
    · refine .inr ⟨⟨q, List.mem_append_left _ hq, hnq⟩, ?_⟩
      rw [hsame.listOpenPositions]
      exact hne
  · have hm : row ∈ st'.session.working.positions := by
      rw [hsame.positions, hp]
      simp
    refine .inr ⟨?_, hopen row hm ho⟩
    rcases h with ⟨_, hst⟩ | ⟨⟨q, hq, hnq⟩, _⟩
    · refine ⟨p, by simp, ?_⟩
      rw [Replayed, ← hst.getByClientOrderId, not_not]
      exact hnew
    · exact ⟨q, List.mem_append_left _ hq, hnq⟩

theorem entriesSoFar (h : Run (Entered s) st₀ ps st) : EntriesSoFar st₀ ps st := by
  refine h.invariant_trace (I := EntriesSoFar st₀) ?_ ?_
  · exact .inl ⟨by simp, .refl st₀⟩
  · intro ps st p st' hi hs
    exact hi.step hs

namespace ReconciliationEngine

/-- The side of a position is never written like the direction of a row. -/
theorem side_ne_direction (side : OrderSide) (direction : DecisionType) :
    side.value ≠ direction.value := by
  cases side <;> cases direction <;> decide

/-- A position that the database has open and that could be read is always reported. -/
theorem positionFindings_of_row (symbol : Symbol) (position : Option PositionState)
    (row : PositionRow) (m : PositionManager) :
    ⟨symbol, if position.isSome then .sideMismatch else .missingInAdapter⟩ ∈
      positionFindings symbol position (some row) m := by
  cases position with
  | none => simp [positionFindings]
  | some p => simp [positionFindings, comparePosition, side_ne_direction]

theorem readEach_unchanged {read : Symbol → Call σ α} (hread : ∀ s x, (read s x).2 = x)
    (symbols : List Symbol) (x : σ) : (readEach read symbols x).2 = x := by
  induction symbols with
  | nil => rfl
  | cons symbol symbols ih =>
    have hx := hread symbol x
    rw [readEach]
    rcases hr : read symbol x with ⟨e | a, x'⟩ <;> rw [hr] at hx <;> subst hx <;> exact ih

/-- The symbols that the positions are asked for. -/
def positionSymbols (symbols : List Symbol) (db : Database) : List Symbol :=
  sortedSymbols (symbols ++ db.listOpenPositions.map (·.symbol))

/-- The simulation answers about every symbol, and changes nothing in doing so. -/
theorem paper_reconcilePositions (symbols : List Symbol) (m : PositionManager) (db : Database)
    (a : PaperAdapter) :
    reconcilePositions PaperAdapter.exchange symbols m db a =
      (((positionSymbols symbols db).flatMap
        (fun s => positionFindings s (a.positions.get s) (openRow db s) m), []), a) := by
  have hread : ∀ s x, (PaperAdapter.exchange.getPosition s x).2 = x := fun _ _ => rfl
  have hreading : ∀ s ∈ positionSymbols symbols db,
      readingOf PaperAdapter.exchange.getPosition (positionSymbols symbols db) a s =
        some (a.positions.get s) := by
    intro s hs
    rw [readingOf_of_unchanged hread, if_pos hs]
    rfl
  have hanswers : (positionSymbols symbols db).filterMap (fun s =>
      (readingOf PaperAdapter.exchange.getPosition (positionSymbols symbols db) a s).map (s, ·)) =
      (positionSymbols symbols db).map (fun s => (s, a.positions.get s)) := by
    rw [← List.filterMap_eq_map]
    apply List.filterMap_congr
    intro s hs
    rw [hreading s hs]
    rfl
  have hfailed : (positionSymbols symbols db).filter (fun s =>
      (readingOf PaperAdapter.exchange.getPosition (positionSymbols symbols db) a s).isNone) =
      [] := by
    apply List.filter_eq_nil_iff.mpr
    intro s hs
    rw [hreading s hs]
    simp
  have he := readEach_eq PaperAdapter.exchange.getPosition
    (sortedSymbols_nodup (symbols ++ db.listOpenPositions.map (·.symbol))) a
  have hx := readEach_unchanged hread (positionSymbols symbols db) a
  rw [← positionSymbols, hanswers, hfailed] at he
  rw [reconcilePositions, ← positionSymbols]
  rcases hr : readEach PaperAdapter.exchange.getPosition (positionSymbols symbols db) a with
    ⟨⟨answers, failed⟩, x⟩
  rw [hr] at he hx
  obtain ⟨rfl, rfl⟩ := Prod.mk.inj he
  dsimp only at hx ⊢
  rw [hx, List.flatMap_map]

theorem paper_reconcile (symbols : List Symbol) (m : PositionManager) (db : Database)
    (a : PaperAdapter) :
    (reconcile PaperAdapter.exchange symbols m db a).1.positionDiscrepancies =
      (positionSymbols symbols db).flatMap
        (fun s => positionFindings s (a.positions.get s) (openRow db s) m) ∧
    (reconcile PaperAdapter.exchange symbols m db a).1.orderDiscrepancies =
      (reconcileOrders PaperAdapter.exchange symbols db a).1.1 := by
  have hp := paper_reconcilePositions symbols m db a
  have hacc : PaperAdapter.exchange.getAccountState a = (.ok a.getAccountState, a) := rfl
  simp only [reconcile, hacc, hp]
  exact ⟨trivial, trivial⟩

/-- The report has nothing about a position and nothing about an order. -/
def ReportsNothing (r : ReconciliationReport) : Prop :=
  r.positionDiscrepancies = [] ∧ r.orderDiscrepancies = []

/-- The orders that rest in the simulation are the PENDING rows. -/
structure RestingStored (symbols : List Symbol) (db : Database) (a : PaperAdapter) : Prop where
  stored : ∀ s ∈ orderSymbols symbols db, ∀ o ∈ a.getOpenOrders s,
    ∃ row, db.getByClientOrderId o.clientOrderId = some row ∧ row.status = .pending
  resting : ∀ row ∈ db.listByStatus .pending orderFetchLimit,
    ∃ s ∈ orderSymbols symbols db, ∃ o ∈ a.getOpenOrders s, o.clientOrderId = row.clientOrderId

theorem compareOrder_nil_iff (hp : o.status = .pending) :
    compareOrder o row = [] ↔ ∃ r, row = some r ∧ r.status = .pending := by
  cases row with
  | none => simp [compareOrder]
  | some r => simp [compareOrder, hp, eq_comm]

theorem mem_paper_liveOrders : o ∈ liveOrders PaperAdapter.exchange symbols db a ↔
    ∃ s ∈ orderSymbols symbols db, o ∈ a.getOpenOrders s := by
  rw [mem_liveOrders]
  constructor
  · intro h
    obtain ⟨s, hs, l, hl, ho⟩ := h
    rw [paper_reading, if_pos hs] at hl
    cases hl
    exact ⟨s, hs, ho⟩
  · intro h
    obtain ⟨s, hs, ho⟩ := h
    refine ⟨s, hs, _, ?_, ho⟩
    rw [paper_reading, if_pos hs]

theorem paper_reconcileOrders_nil_iff :
    (reconcileOrders PaperAdapter.exchange symbols db a).1.1 = [] ↔ RestingStored symbols db a := by
  have hpending : ∀ s, ∀ o ∈ a.getOpenOrders s, o.status = .pending := by
    intro s o ho
    exact (of_decide_eq_true (List.mem_filter.mp ho).2).2
  have hgone : ∀ row ∈ db.listByStatus .pending orderFetchLimit,
      (¬gone PaperAdapter.exchange symbols db a row = true ↔
        ∃ s ∈ orderSymbols symbols db, ∃ o ∈ a.getOpenOrders s,
          o.clientOrderId = row.clientOrderId) := by
    intro row hrow
    have hasked : row.symbol ∈ orderSymbols symbols db :=
      mem_sortedSymbols.mpr (List.mem_append_right _ (List.mem_map_of_mem hrow))
    have hread : orderReading PaperAdapter.exchange symbols db a row.symbol ≠ none := by
      rw [paper_reading, if_pos hasked]
      simp
    simp only [gone, decide_eq_true_eq, hread, ne_eq, not_false_eq_true, and_true, not_not,
      List.mem_map, mem_paper_liveOrders]
    constructor
    · intro h'
      obtain ⟨o, ⟨s, hs, ho⟩, he⟩ := h'
      exact ⟨s, hs, o, ho, he⟩
    · intro h'
      obtain ⟨s, hs, o, ho, he⟩ := h'
      exact ⟨o, ⟨s, hs, ho⟩, he⟩
  rw [reconcileOrders_eq, List.append_eq_nil_iff, List.flatMap_eq_nil_iff, List.map_eq_nil_iff,
    List.filter_eq_nil_iff]
  constructor
  · intro h'
    obtain ⟨hlive, hrows⟩ := h'
    refine ⟨?_, fun row hrow => (hgone row hrow).mp (hrows row hrow)⟩
    intro s hs o ho
    exact (compareOrder_nil_iff (hpending s o ho)).mp
      (hlive o (mem_paper_liveOrders.mpr ⟨s, hs, ho⟩))
  · intro h
    refine ⟨?_, fun row hrow => (hgone row hrow).mpr (h.resting row hrow)⟩
    intro o ho
    obtain ⟨s, hs, ho⟩ := mem_paper_liveOrders.mp ho
    exact (compareOrder_nil_iff (hpending s o ho)).mpr (h.stored s hs o ho)

theorem RestingStored.congr (h : SameRecords st st') :
    RestingStored symbols st'.session.working st'.exchange ↔
      RestingStored symbols st.session.working st.exchange := by
  have hs : orderSymbols symbols st'.session.working = orderSymbols symbols st.session.working := by
    simp only [orderSymbols, h.listByStatus]
  constructor
  · intro hr
    constructor
    · simpa only [hs, h.getByClientOrderId, h.getOpenOrders] using hr.stored
    · simpa only [hs, h.listByStatus, h.getOpenOrders] using hr.resting
  · intro hr
    constructor
    · simpa only [hs, h.getByClientOrderId, h.getOpenOrders] using hr.stored
    · simpa only [hs, h.listByStatus, h.getOpenOrders] using hr.resting

/-- Without an open position on either side there is nothing to compare. -/
theorem positionFindings_nil {a : PaperAdapter} (hdb : db.listOpenPositions = [])
    (ha : ∀ s, a.positions.get s = none) (m : PositionManager) (all : List Symbol) :
    all.flatMap (fun s => positionFindings s (a.positions.get s) (openRow db s) m) = [] := by
  apply List.flatMap_eq_nil_iff.mpr
  intro s _
  simp [positionFindings, ha, openRow, hdb]

/-- An open row is reported, whatever the simulation holds. -/
theorem positionFindings_ne_nil (hdb : db.listOpenPositions ≠ []) (m : PositionManager)
    (symbols : List Symbol) (a : PaperAdapter) :
    (positionSymbols symbols db).flatMap
      (fun s => positionFindings s (a.positions.get s) (openRow db s) m) ≠ [] := by
  obtain ⟨row, hrow⟩ := List.exists_mem_of_ne_nil _ hdb
  have hs : row.symbol ∈ positionSymbols symbols db :=
    mem_sortedSymbols.mpr (List.mem_append_right _ (List.mem_map_of_mem hrow))
  have hfilter : row ∈ db.listOpenPositions.filter (·.symbol = row.symbol) :=
    List.mem_filter.mpr ⟨hrow, decide_eq_true rfl⟩
  obtain ⟨last, hlast⟩ := Option.isSome_iff_exists.mp
    (List.getLast?_isSome.mpr (List.ne_nil_of_mem hfilter))
  intro hnil
  have hnone := List.flatMap_eq_nil_iff.mp hnil row.symbol hs
  have hmem := positionFindings_of_row row.symbol (a.positions.get row.symbol) last m
  rw [openRow, hlast] at hnone
  rw [hnone] at hmem
  cases hmem

/-- After entries that all filled, the report is clean only where nothing was entered. -/
theorem reports_nothing_iff (h : Run (Entered s) st₀ ps st)
    (hdb : st₀.session.working.listOpenPositions = [])
    (ha : ∀ symbol, st₀.exchange.positions.get symbol = none) :
    ReportsNothing
        (reconcile PaperAdapter.exchange symbols st.manager st.session.working st.exchange).1 ↔
      (∀ p ∈ ps, Replayed st₀.session.working p) ∧
        RestingStored symbols st₀.session.working st₀.exchange := by
  obtain ⟨hp, ho⟩ := paper_reconcile symbols st.manager st.session.working st.exchange
  rw [ReportsNothing, hp, ho, paper_reconcileOrders_nil_iff]
  rcases entriesSoFar h with ⟨hall, hsame⟩ | ⟨⟨p, hm, hnew⟩, hne⟩
  · have hnil := positionFindings_nil (hsame.listOpenPositions.trans hdb)
      (a := st.exchange) (fun s => by rw [hsame.held]; exact ha s) st.manager
      (positionSymbols symbols st.session.working)
    rw [RestingStored.congr hsame]
    constructor
    · intro h'
      obtain ⟨_, hr⟩ := h'
      exact ⟨hall, hr⟩
    · intro h'
      obtain ⟨_, hr⟩ := h'
      exact ⟨hnil, hr⟩
  · constructor
    · intro h'
      obtain ⟨hnil, _⟩ := h'
      exact absurd hnil (positionFindings_ne_nil hne _ _ _)
    · intro h'
      obtain ⟨hall, _⟩ := h'
      exact absurd (hall p hm) hnew

end ReconciliationEngine

/-- The sample decision as the idle bot receives it. -/
def samplePlan (r : RiskValidationResult) : EntryPlan := ⟨sampleDecision, r, none⟩

theorem sample_entered : ∃ r, approvedSample = some r ∧ r.decision.executable ∧
    Run (Entered paperSettings) (idleWithAtr 2) [samplePlan r] (sampleEntry 2 r) := by
  have he : approvedSample.map (fun r => r.decision.executable &&
      (executeApprovedPlan PaperAdapter.exchange paperSettings sampleDecision r none
        (idleWithAtr 2)).1.toOption.any (·.orderResult.status = .filled)) = some true := by
    decide +kernel
  obtain ⟨r, hr, hall⟩ := Option.map_eq_some_iff.mp he
  obtain ⟨hx, hfilled⟩ := Bool.and_eq_true_iff.mp hall
  refine ⟨r, hr, hx, .snoc (.nil _) ⟨rfl, ?_⟩⟩
  rcases ho : executeApprovedPlan PaperAdapter.exchange paperSettings sampleDecision r none
    (idleWithAtr 2) with ⟨e | answer, st⟩
  · rw [ho] at hfilled
    cases hfilled
  · rw [ho] at hfilled
    refine ⟨answer, st, ho, of_decide_eq_true hfilled, ?_⟩
    rw [sampleEntry, ho]
    exact .refl st

namespace ReconciliationEngine

theorem sample_reports_iff : ∃ r, ReportsNothing (reconcile PaperAdapter.exchange ["BTCUSDT"]
      (sampleEntry 2 r).manager (sampleEntry 2 r).session.working (sampleEntry 2 r).exchange).1 ↔
    (∀ p ∈ [samplePlan r], Replayed (idleWithAtr 2).session.working p) ∧
      RestingStored ["BTCUSDT"] (idleWithAtr 2).session.working (idleWithAtr 2).exchange := by
  obtain ⟨r, _, _, hrun⟩ := sample_entered
  exact ⟨r, reports_nothing_iff hrun rfl (fun _ => rfl)⟩

/-- One long entry, filled and registered, is reported for its side. -/
theorem long_entry_reported :
    ¬∀ (s : ExecutionSettings) (symbols : List Symbol) (st₀ st : TradingState PaperAdapter)
      (ps : List EntryPlan), Run (Entered s) st₀ ps st →
      st₀.session.working.orders = [] → st₀.session.working.positions = [] →
      st₀.exchange.orders = .empty → st₀.exchange.positions = .empty →
      (∀ p ∈ ps, ∃ ctx config, validate p.decision ctx config = .ok p.validation ∧
        p.validation.decision.executable) →
      (∀ p ∈ ps, ∀ q ∈ ps, p.decision.symbol = q.decision.symbol →
        p.decision.decision = q.decision.decision) →
      ReportsNothing
        (reconcile PaperAdapter.exchange symbols st.manager st.session.working st.exchange).1 := by
  intro h
  obtain ⟨r, hr, hx, hrun⟩ := sample_entered
  have hv : validate sampleDecision sampleContext defaultConfig = .ok r := by
    rw [approvedSample] at hr
    cases hval : validate sampleDecision sampleContext defaultConfig with
    | error e =>
      rw [hval] at hr
      cases hr
    | ok r' =>
      rw [hval] at hr
      rw [Option.some.inj hr]
  have happroved : ∀ p ∈ [samplePlan r], ∃ ctx config,
      validate p.decision ctx config = .ok p.validation ∧ p.validation.decision.executable := by
    intro p hp
    rw [List.mem_singleton.mp hp]
    exact ⟨sampleContext, defaultConfig, hv, hx⟩
  have hclean := (h paperSettings ["BTCUSDT"] _ _ _ hrun rfl rfl rfl rfl happroved (by simp)).1
  have hreport : approvedSample.map (fun r => (reconcile PaperAdapter.exchange ["BTCUSDT"]
      (sampleEntry 2 r).manager (sampleEntry 2 r).session.working
      (sampleEntry 2 r).exchange).1.positionDiscrepancies) =
      some [⟨"BTCUSDT", .sideMismatch⟩] := by decide +kernel
  rw [hr] at hreport
  have hfound := hclean.symm.trans (Option.some.inj hreport)
  cases hfound

end ReconciliationEngine

end FuturesBot
