import FuturesBot.Exchange.Paper
import FuturesBot.Lib.Keyed
import FuturesBot.Reconciliation.Engine

namespace FuturesBot
open Lib

namespace ReconciliationEngine

/-- What a pass over the symbols got from one of them; nothing, where the read raised. -/
def readingOf (read : Symbol → Call σ α) : List Symbol → σ → Symbol → Option α
  | [], _, _ => none
  | symbol :: symbols, x, s =>
    if s = symbol then (read symbol x).1.toOption else readingOf read symbols (read symbol x).2 s

/-- A pass that asks every symbol once keeps the answers in the order of the symbols. -/
theorem readEach_eq (read : Symbol → Call σ α) {symbols : List Symbol} (hn : symbols.Nodup)
    (x : σ) : (readEach read symbols x).1 =
      (symbols.filterMap (fun s => (readingOf read symbols x s).map (s, ·)),
        symbols.filter (fun s => (readingOf read symbols x s).isNone)) := by
  induction symbols generalizing x with
  | nil => rfl
  | cons symbol symbols ih =>
    obtain ⟨hs, hn⟩ := List.nodup_cons.mp hn
    have hrest : ∀ s ∈ symbols, readingOf read (symbol :: symbols) x s =
        readingOf read symbols (read symbol x).2 s := by
      intro s hm
      have hne : s ≠ symbol := by
        rintro rfl
        exact hs hm
      rw [readingOf, if_neg hne]
    have hself : readingOf read (symbol :: symbols) x symbol = (read symbol x).1.toOption := by
      rw [readingOf, if_pos rfl]
    have hanswers := List.filterMap_congr (fun s hm => congrArg (Option.map (s, ·)) (hrest s hm))
    have hfailed := List.filter_congr (fun s hm => congrArg Option.isNone (hrest s hm))
    rw [List.filterMap_cons, List.filter_cons, hanswers, hfailed, hself]
    have ihx := ih hn (read symbol x).2
    rw [readEach]
    rcases hr : read symbol x with ⟨e | a, x'⟩
    · rw [hr] at ihx
      simp [ihx, Except.toOption]
    · rw [hr] at ihx
      simp [ihx, Except.toOption]

/-- The symbols that the orders are asked for. -/
def orderSymbols (symbols : List Symbol) (db : Database) : List Symbol :=
  sortedSymbols (symbols ++ (db.listByStatus .pending orderFetchLimit).map (·.symbol))

/-- What the exchange answered about the orders of a symbol. -/
def orderReading (A : ExchangeAdapter σ) (symbols : List Symbol) (db : Database) (x : σ) :
    Symbol → Option (List OrderResult) :=
  readingOf A.getOpenOrders (orderSymbols symbols db) x

/-- The live orders that the exchange has shown. -/
def liveOrders (A : ExchangeAdapter σ) (symbols : List Symbol) (db : Database) (x : σ) :
    List OrderResult :=
  (orderSymbols symbols db).flatMap (fun s => (orderReading A symbols db x s).getD [])

/-- The row that an identifier has, in this run or another. -/
def Known (db : Database) (oid : ClientOrderId) (row : OrderRow) : Prop :=
  row ∈ db.orders ++ db.ordersOfOtherRuns ∧ row.clientOrderId = oid

/-- The orders of the exchange and of the database are to be matched. -/
structure Matchable (A : ExchangeAdapter σ) (symbols : List Symbol) (db : Database) (x : σ) :
    Prop where
  few : (db.orders.filter (·.status = .pending)).length < orderFetchLimit
  -- The unique constraint of the table.
  unique : ((db.orders ++ db.ordersOfOtherRuns).map (·.clientOrderId)).Nodup
  distinct : ((liveOrders A symbols db x).map (·.clientOrderId)).Nodup
  sameSymbol : ∀ o ∈ liveOrders A symbols db x, ∀ row, Known db o.clientOrderId row →
    row.symbol = o.symbol

/-- The open orders of a symbol are orders of that symbol. -/
def OwnSymbols (A : ExchangeAdapter σ) (symbols : List Symbol) (db : Database) (x : σ) : Prop :=
  ∀ s l, orderReading A symbols db x s = some l → ∀ o ∈ l, o.symbol = s

/-- How a live order is classified, if at all. -/
structure Classified (db : Database) (o : OrderResult) (c : Option DiscrepancyType) : Prop where
  none_iff : c = none ↔ ∃ row, Known db o.clientOrderId row ∧ row.status = o.status ∧
    o.status ≠ .partiallyFilled
  missing_iff : c = some .missingInDb ↔ ¬∃ row, Known db o.clientOrderId row
  partial_iff : c = some .partialFill ↔
    (∃ row, Known db o.clientOrderId row) ∧ o.status = .partiallyFilled
  mismatch_iff : c = some .statusMismatch ↔ ∃ row, Known db o.clientOrderId row ∧
    row.status ≠ o.status ∧ o.status ≠ .partiallyFilled

/-- Every order has one finding at most, and every finding is about an order. -/
structure ExactReport (A : ExchangeAdapter σ) (symbols : List Symbol) (db : Database) (x : σ)
    (report : List OrderDiscrepancy) : Prop where
  live : ∀ o ∈ liveOrders A symbols db x, ∃ c, Classified db o c ∧
    report.filter (fun d => d.clientOrderId = o.clientOrderId) =
      c.toList.map (⟨o.clientOrderId, o.symbol, ·⟩)
  pending : ∀ row ∈ db.orders, row.status = .pending →
    orderReading A symbols db x row.symbol ≠ none →
    ((⟨row.clientOrderId, row.symbol, .missingInAdapter⟩ ∈ report ↔
      ∀ o ∈ liveOrders A symbols db x, o.clientOrderId ≠ row.clientOrderId) ∧
    ((∀ o ∈ liveOrders A symbols db x, o.clientOrderId ≠ row.clientOrderId) →
      report.filter (fun d => d.clientOrderId = row.clientOrderId) =
        [⟨row.clientOrderId, row.symbol, .missingInAdapter⟩]))
  others : ∀ d ∈ report, (∃ o ∈ liveOrders A symbols db x, o.clientOrderId = d.clientOrderId) ∨
    ∃ row ∈ db.orders, row.status = .pending ∧ row.clientOrderId = d.clientOrderId ∧
      orderReading A symbols db x row.symbol ≠ none

theorem sortedSymbols_nodup (symbols : List Symbol) : (sortedSymbols symbols).Nodup :=
  (List.perm_insertionSort _ _).nodup_iff.mpr (List.nodup_dedup _)

theorem mem_sortedSymbols {symbols : List Symbol} : s ∈ sortedSymbols symbols ↔ s ∈ symbols := by
  rw [sortedSymbols, (List.perm_insertionSort _ _).mem_iff, List.mem_dedup]

/-- Below the limit of the query no PENDING row is left out. -/
theorem listByStatus_perm {db : Database}
    (h : (db.orders.filter (·.status = status)).length < limit) :
    (db.listByStatus status limit).Perm (db.orders.filter (·.status = status)) := by
  have hp := List.perm_insertionSort (fun a b : OrderRow => b.createdAt ≤ a.createdAt)
    (db.orders.filter (·.status = status))
  rw [Database.listByStatus, List.take_of_length_le (by rw [hp.length_eq]; exact h.le)]
  exact hp

theorem getByClientOrderId_eq {db : Database}
    (hu : ((db.orders ++ db.ordersOfOtherRuns).map (·.clientOrderId)).Nodup) :
    db.getByClientOrderId oid = some row ↔ Known db oid row := by
  constructor
  · intro h
    exact ⟨List.mem_of_find?_eq_some h, by simpa using List.find?_some h⟩
  · intro h'
    obtain ⟨hm, rfl⟩ := h'
    cases hf : db.getByClientOrderId row.clientOrderId with
    | none =>
      have hno := List.find?_eq_none.mp hf row hm
      simp at hno
    | some row' =>
      have he : row'.clientOrderId = row.clientOrderId := by simpa using List.find?_some hf
      rw [List.inj_on_of_nodup_map hu (List.mem_of_find?_eq_some hf) hm he]

/-- What the comparison says of an order is its classification. -/
theorem compareOrder_classified {db : Database} (o : OrderResult)
    (hu : ((db.orders ++ db.ordersOfOtherRuns).map (·.clientOrderId)).Nodup) :
    ∃ c, Classified db o c ∧ compareOrder o (db.getByClientOrderId o.clientOrderId) =
      c.toList.map (⟨o.clientOrderId, o.symbol, ·⟩) := by
  have hk : ∀ row, Known db o.clientOrderId row ↔
      db.getByClientOrderId o.clientOrderId = some row := fun row => (getByClientOrderId_eq hu).symm
  cases hr : db.getByClientOrderId o.clientOrderId with
  | none =>
    refine ⟨some .missingInDb, ?_, rfl⟩
    constructor <;> simp [hk, hr]
  | some row =>
    by_cases hp : o.status = .partiallyFilled
    · refine ⟨some .partialFill, ?_, by simp [compareOrder, hp]⟩
      constructor <;> simp [hk, hr, hp]
    · by_cases hs : o.status = row.status
      · have hp' : row.status ≠ .partiallyFilled := hs ▸ hp
        refine ⟨none, ?_, by simp [compareOrder, hs, hp']⟩
        constructor <;> simp [hk, hr, hs, hp']
      · refine ⟨some .statusMismatch, ?_, by simp [compareOrder, hp, hs]⟩
        constructor <;> simp [hk, hr, hp, eq_comm, hs]

/-- A PENDING row that was asked for and not shown. -/
def gone (A : ExchangeAdapter σ) (symbols : List Symbol) (db : Database) (x : σ)
    (row : OrderRow) : Bool :=
  row.clientOrderId ∉ (liveOrders A symbols db x).map (·.clientOrderId) ∧
    orderReading A symbols db x row.symbol ≠ none

theorem flatMap_readings (symbols : List Symbol) (reading : Symbol → Option (List α)) :
    (symbols.filterMap (fun s => (reading s).map (s, ·))).flatMap (·.2) =
      symbols.flatMap (fun s => (reading s).getD []) := by
  induction symbols with
  | nil => rfl
  | cons s symbols ih =>
    rw [List.filterMap_cons, List.flatMap_cons]
    cases hr : reading s with
    | none => simpa using ih
    | some l => simpa using ih

/-- The report in terms of what the exchange has shown. -/
theorem reconcileOrders_eq (A : ExchangeAdapter σ) (symbols : List Symbol) (db : Database) (x : σ) :
    (reconcileOrders A symbols db x).1.1 =
      (liveOrders A symbols db x).flatMap
        (fun o => compareOrder o (db.getByClientOrderId o.clientOrderId)) ++
      ((db.listByStatus .pending orderFetchLimit).filter (gone A symbols db x)).map
        (fun row => ⟨row.clientOrderId, row.symbol, .missingInAdapter⟩) := by
  have he : (readEach A.getOpenOrders (orderSymbols symbols db) x).1 =
      ((orderSymbols symbols db).filterMap (fun s => (orderReading A symbols db x s).map (s, ·)),
        (orderSymbols symbols db).filter (fun s => (orderReading A symbols db x s).isNone)) :=
    readEach_eq _ (sortedSymbols_nodup _) x
  have hl : _ = liveOrders A symbols db x :=
    flatMap_readings (orderSymbols symbols db) (orderReading A symbols db x)
  rcases hr : readEach A.getOpenOrders (orderSymbols symbols db) x with ⟨⟨answers, failed⟩, x'⟩
  rw [hr] at he
  obtain ⟨hanswers, hfailed⟩ := Prod.mk.inj he
  rw [orderSymbols] at hr
  simp only [reconcileOrders, hr]
  rw [hanswers, hfailed, hl]
  congr 2
  apply List.filter_congr
  intro row hrow
  have hasked : row.symbol ∈ orderSymbols symbols db :=
    mem_sortedSymbols.mpr (List.mem_append_right _ (List.mem_map_of_mem hrow))
  have hread : row.symbol ∉ (orderSymbols symbols db).filter
      (fun s => (orderReading A symbols db x s).isNone) ↔
      orderReading A symbols db x row.symbol ≠ none := by
    simp [List.mem_filter, hasked]
  exact decide_eq_decide.mpr (and_congr Iff.rfl hread)

theorem mem_compareOrder (h : d ∈ compareOrder o row) :
    d.clientOrderId = o.clientOrderId ∧ d.symbol = o.symbol ∧
      d.discrepancyType ≠ .missingInAdapter := by
  unfold compareOrder at h
  split at h
  · rw [List.mem_singleton.mp h]
    simp
  · split at h
    · rw [List.mem_singleton.mp h]
      simp
    · split at h
      · rw [List.mem_singleton.mp h]
        simp
      · cases h

theorem Matchable.mem_pending (h : Matchable A symbols db x) :
    row ∈ db.listByStatus .pending orderFetchLimit ↔ row ∈ db.orders ∧ row.status = .pending := by
  rw [(listByStatus_perm h.few).mem_iff, List.mem_filter, decide_eq_true_eq]

theorem Matchable.pending_nodup (h : Matchable A symbols db x) :
    ((db.listByStatus .pending orderFetchLimit).map (·.clientOrderId)).Nodup := by
  have hp := (listByStatus_perm h.few).map (·.clientOrderId)
  have hs : (db.orders.filter (·.status = .pending)).Sublist (db.orders ++ db.ordersOfOtherRuns) :=
    List.filter_sublist.trans (List.sublist_append_left _ _)
  exact hp.nodup_iff.mpr (h.unique.sublist (hs.map _))

/-- A finding under the identifier of a live order comes from its comparison. -/
theorem Matchable.filter_live (h : Matchable A symbols db x) (ho : o ∈ liveOrders A symbols db x) :
    (reconcileOrders A symbols db x).1.1.filter (fun d => d.clientOrderId = o.clientOrderId) =
      compareOrder o (db.getByClientOrderId o.clientOrderId) := by
  have hsame : ∀ o ∈ liveOrders A symbols db x,
      ∀ d ∈ compareOrder o (db.getByClientOrderId o.clientOrderId),
        d.clientOrderId = o.clientOrderId :=
    fun _ _ _ hd => (mem_compareOrder hd).1
  have hkey := flatMap_filter_key (fun o : OrderResult => o.clientOrderId)
    OrderDiscrepancy.clientOrderId hsame h.distinct ho
  rw [reconcileOrders_eq, List.filter_append, hkey]
  have hnone : (((db.listByStatus .pending orderFetchLimit).filter (gone A symbols db x)).map
      (fun row => (⟨row.clientOrderId, row.symbol, .missingInAdapter⟩ : OrderDiscrepancy))).filter
      (fun d => d.clientOrderId = o.clientOrderId) = [] := by
    apply List.filter_eq_nil_iff.mpr
    intro d hd
    obtain ⟨row, hrow, rfl⟩ := List.mem_map.mp hd
    have hgone := of_decide_eq_true (List.mem_filter.mp hrow).2
    rw [decide_eq_true_eq]
    intro he
    have hsame : row.clientOrderId = o.clientOrderId := he
    refine hgone.1 ?_
    rw [hsame]
    exact List.mem_map_of_mem ho
  rw [hnone, List.append_nil]

/-- A PENDING row that is not live has the one finding that it is missing. -/
theorem Matchable.filter_gone (h : Matchable A symbols db x)
    (hrow : row ∈ db.orders ∧ row.status = .pending) (hgone : gone A symbols db x row) :
    (reconcileOrders A symbols db x).1.1.filter (fun d => d.clientOrderId = row.clientOrderId) =
      [⟨row.clientOrderId, row.symbol, .missingInAdapter⟩] := by
  have habsent : row.clientOrderId ∉ (liveOrders A symbols db x).map (·.clientOrderId) :=
    (of_decide_eq_true hgone).1
  have hkey := filter_map_filter_key (p := gone A symbols db x) OrderRow.clientOrderId
    OrderDiscrepancy.clientOrderId
    (fun row => ⟨row.clientOrderId, row.symbol, .missingInAdapter⟩)
    (fun _ _ => rfl) h.pending_nodup (h.mem_pending.mpr hrow)
  rw [reconcileOrders_eq, List.filter_append, flatMap_filter_absent
    (fun o : OrderResult => o.clientOrderId) OrderDiscrepancy.clientOrderId
    (fun o _ d hd => (mem_compareOrder hd).1) habsent, List.nil_append]
  exact hkey.trans (if_pos hgone)

theorem Matchable.exact (h : Matchable A symbols db x) :
    ExactReport A symbols db x (reconcileOrders A symbols db x).1.1 where
  live := by
    intro o ho
    obtain ⟨c, hc, he⟩ := compareOrder_classified o h.unique
    exact ⟨c, hc, (h.filter_live ho).trans he⟩
  pending := by
    intro row hrow hs hread
    have hgone : (∀ o ∈ liveOrders A symbols db x, o.clientOrderId ≠ row.clientOrderId) →
        gone A symbols db x row := by
      intro hlive
      refine decide_eq_true ⟨?_, hread⟩
      intro hm
      obtain ⟨o, ho, he⟩ := List.mem_map.mp hm
      exact hlive o ho he
    refine ⟨⟨?_, ?_⟩, fun hlive => h.filter_gone ⟨hrow, hs⟩ (hgone hlive)⟩
    · intro hm o ho he
      have hf : _ ∈ (reconcileOrders A symbols db x).1.1.filter
          (fun d => d.clientOrderId = o.clientOrderId) :=
        List.mem_filter.mpr ⟨hm, decide_eq_true he.symm⟩
      rw [h.filter_live ho] at hf
      exact (mem_compareOrder hf).2.2 rfl
    · intro hlive
      have hf := h.filter_gone ⟨hrow, hs⟩ (hgone hlive)
      exact List.mem_of_mem_filter (hf ▸ List.mem_singleton_self _)
  others := by
    intro d hd
    rw [reconcileOrders_eq] at hd
    rcases List.mem_append.mp hd with hd | hd
    · obtain ⟨o, ho, hd⟩ := List.mem_flatMap.mp hd
      exact .inl ⟨o, ho, (mem_compareOrder hd).1.symm⟩
    · obtain ⟨row, hrow, rfl⟩ := List.mem_map.mp hd
      obtain ⟨hp, hg⟩ := List.mem_filter.mp hrow
      obtain ⟨hm, hs⟩ := h.mem_pending.mp hp
      exact .inr ⟨row, hm, hs, rfl, (of_decide_eq_true hg).2⟩

theorem mem_liveOrders : o ∈ liveOrders A symbols db x ↔
    ∃ s ∈ orderSymbols symbols db, ∃ l, orderReading A symbols db x s = some l ∧ o ∈ l := by
  simp only [liveOrders, List.mem_flatMap]
  constructor
  · intro h
    obtain ⟨s, hs, ho⟩ := h
    cases hl : orderReading A symbols db x s with
    | none =>
      rw [hl] at ho
      cases ho
    | some l =>
      rw [hl] at ho
      exact ⟨s, hs, l, hl, ho⟩
  · intro h
    obtain ⟨s, hs, l, hl, ho⟩ := h
    refine ⟨s, hs, ?_⟩
    rw [hl]
    exact ho

/-- Of the live orders, those of a symbol are the ones shown for it. -/
theorem OwnSymbols.filter_symbols (h : OwnSymbols A symbols db x) (F : List Symbol) :
    ((liveOrders A symbols db x).flatMap
      (fun o => compareOrder o (db.getByClientOrderId o.clientOrderId))).filter (·.symbol ∉ F) =
    ((orderSymbols symbols db).filter (· ∉ F)).flatMap (fun s =>
      ((orderReading A symbols db x s).getD []).flatMap
        (fun o => compareOrder o (db.getByClientOrderId o.clientOrderId))) := by
  have hsymbol : ∀ s, ∀ d ∈ ((orderReading A symbols db x s).getD []).flatMap
      (fun o => compareOrder o (db.getByClientOrderId o.clientOrderId)), d.symbol = s := by
    intro s d hd
    obtain ⟨o, ho, hd⟩ := List.mem_flatMap.mp hd
    cases hl : orderReading A symbols db x s with
    | none =>
      rw [hl] at ho
      cases ho
    | some l =>
      rw [hl] at ho
      exact (mem_compareOrder hd).2.1.trans (h s l hl o ho)
  rw [liveOrders, List.flatMap_assoc]
  induction orderSymbols symbols db with
  | nil => rfl
  | cons s all ih =>
    rw [List.flatMap_cons, List.filter_append, ih, List.filter_cons]
    by_cases hs : s ∈ F
    · rw [if_neg (by simpa using hs), List.filter_eq_nil_iff.mpr, List.nil_append]
      intro d hd
      rw [hsymbol s d hd]
      simpa using hs
    · rw [if_pos (by simpa using hs), List.flatMap_cons, List.filter_eq_self.mpr]
      intro d hd
      rw [hsymbol s d hd]
      simpa using hs

/-- A row finds its live order wherever its own symbol has been read the same. -/
theorem Matchable.live_of_agree (h : Matchable A symbols db x) (hown : OwnSymbols A symbols db x)
    (hrow : row ∈ db.orders)
    (ho : o ∈ liveOrders A symbols db x) (he : o.clientOrderId = row.clientOrderId)
    (hs : orderReading A' symbols db x' row.symbol = orderReading A symbols db x row.symbol) :
    o ∈ liveOrders A' symbols db x' := by
  have hknown : Known db o.clientOrderId row := ⟨List.mem_append_left _ hrow, he.symm⟩
  have hrs : row.symbol = o.symbol := h.sameSymbol o ho row hknown
  obtain ⟨s, hm, l, hl, hol⟩ := mem_liveOrders.mp ho
  have hos : o.symbol = s := hown s l hl o hol
  rw [← hos, ← hrs] at hm hl
  exact mem_liveOrders.mpr ⟨row.symbol, hm, l, hs.trans hl, hol⟩

theorem Matchable.gone_of_agree (h : Matchable A symbols db x) (hown : OwnSymbols A symbols db x)
    (h' : Matchable A' symbols db x') (hown' : OwnSymbols A' symbols db x') (hrow : row ∈ db.orders)
    (hs : orderReading A' symbols db x' row.symbol = orderReading A symbols db x row.symbol) :
    gone A' symbols db x' row = gone A symbols db x row := by
  refine decide_eq_decide.mpr (and_congr (not_congr ?_) (by rw [hs]))
  simp only [List.mem_map]
  constructor
  · intro hx
    obtain ⟨o, ho, he⟩ := hx
    exact ⟨o, h'.live_of_agree hown' hrow ho he hs.symm, he⟩
  · intro hx
    obtain ⟨o, ho, he⟩ := hx
    exact ⟨o, h.live_of_agree hown hrow ho he hs, he⟩

/-- The symbols that answer the same are reported the same, whatever the others do. -/
theorem Matchable.isolated {F : List Symbol} (h : Matchable A symbols db x)
    (hown : OwnSymbols A symbols db x) (h' : Matchable A' symbols db x')
    (hown' : OwnSymbols A' symbols db x')
    (hF : ∀ s, s ∉ F → orderReading A' symbols db x' s = orderReading A symbols db x s) :
    (reconcileOrders A' symbols db x').1.1.filter (·.symbol ∉ F) =
      (reconcileOrders A symbols db x).1.1.filter (·.symbol ∉ F) := by
  rw [reconcileOrders_eq, reconcileOrders_eq, List.filter_append, List.filter_append,
    hown.filter_symbols, hown'.filter_symbols]
  congr 1
  · apply List.flatMap_congr
    intro s hs
    rw [hF s (by simpa using (List.mem_filter.mp hs).2)]
  · rw [List.filter_map, List.filter_map, List.filter_filter, List.filter_filter]
    congr 1
    apply List.filter_congr
    intro row hrow
    by_cases hs : row.symbol ∈ F
    · simp [hs]
    · rw [h.gone_of_agree hown h' hown' (h.mem_pending.mp hrow).1 (hF row.symbol hs)]

theorem flatMap_sublist {f f' : α → List β} (hf : ∀ a, (f' a).Sublist (f a)) (l : List α) :
    (l.flatMap f').Sublist (l.flatMap f) := by
  induction l with
  | nil => exact .slnil
  | cons a l ih =>
    rw [List.flatMap_cons, List.flatMap_cons]
    exact (hf a).append ih

/-- Reads that fail take nothing else away. -/
theorem Matchable.of_failures (h : Matchable A symbols db x)
    (hr : ∀ s, orderReading A' symbols db x' s = none ∨
      orderReading A' symbols db x' s = orderReading A symbols db x s) :
    Matchable A' symbols db x' := by
  have hsub : (liveOrders A' symbols db x').Sublist (liveOrders A symbols db x) := by
    apply flatMap_sublist
    intro s
    rcases hr s with hn | he
    · rw [hn]
      exact List.nil_sublist _
    · rw [he]
  refine ⟨h.few, h.unique, h.distinct.sublist (hsub.map _), ?_⟩
  intro o ho
  exact h.sameSymbol o (hsub.subset ho)

theorem OwnSymbols.of_failures (h : OwnSymbols A symbols db x)
    (hr : ∀ s, orderReading A' symbols db x' s = none ∨
      orderReading A' symbols db x' s = orderReading A symbols db x s) :
    OwnSymbols A' symbols db x' := by
  intro s l hl
  rcases hr s with hn | he
  · rw [hn] at hl
    cases hl
  · exact h s l (he ▸ hl)

/-- The orders of every symbol that could be read are matched exactly, and the symbols
that could not be read change nothing about the others. -/
theorem order_reconciliation_exact (h : Matchable A symbols db x) :
    ExactReport A symbols db x (reconcileOrders A symbols db x).1.1 ∧
    (OwnSymbols A symbols db x → ∀ (τ : Type v) (A' : ExchangeAdapter τ) (x' : τ) (F : List Symbol),
      (∀ s ∈ F, orderReading A' symbols db x' s = none) →
      (∀ s, s ∉ F → orderReading A' symbols db x' s = orderReading A symbols db x s) →
      ExactReport A' symbols db x' (reconcileOrders A' symbols db x').1.1 ∧
      (reconcileOrders A' symbols db x').1.1.filter (·.symbol ∉ F) =
        (reconcileOrders A symbols db x).1.1.filter (·.symbol ∉ F)) := by
  refine ⟨h.exact, ?_⟩
  intro hown τ A' x' F hfail hother
  have hr : ∀ s, orderReading A' symbols db x' s = none ∨
      orderReading A' symbols db x' s = orderReading A symbols db x s := by
    intro s
    by_cases hs : s ∈ F
    · exact .inl (hfail s hs)
    · exact .inr (hother s hs)
  have h' : Matchable A' symbols db x' := h.of_failures hr
  exact ⟨h'.exact, h.isolated hown h' (hown.of_failures hr) hother⟩

/-- Where reads change nothing, each symbol's answer is its own. -/
theorem readingOf_of_unchanged {read : Symbol → Call σ α} (hread : ∀ s x, (read s x).2 = x)
    (symbols : List Symbol) (x : σ) (s : Symbol) :
    readingOf read symbols x s = if s ∈ symbols then (read s x).1.toOption else none := by
  induction symbols with
  | nil => rfl
  | cons symbol symbols ih =>
    rw [readingOf, hread, ih]
    by_cases hs : s = symbol
    · simp [hs]
    · simp [hs]

end ReconciliationEngine

/-- The same adapter, with open orders that cannot be read for some symbols. -/
def ExchangeAdapter.hiding (A : ExchangeAdapter σ) (F : List Symbol) : ExchangeAdapter σ :=
  { A with
    getOpenOrders := fun s x =>
      if s ∈ F then (.error (.external "transport"), x) else A.getOpenOrders s x }

def strayOrder : OrderResult where
  clientOrderId := "stray"
  symbol := "BTCUSDT"
  side := .buy
  orderType := .limit
  status := .pending
  quantityRequested := 1
  isSimulated := true
  timestampUtc := 0
  valid := by simp [OrderResultFields.Valid]

/-- The simulation holds an order that the database does not know. -/
def paperWithStray : PaperAdapter := { orders := Dict.empty.set "stray" strayOrder }

/-- The database waits for an order that the simulation does not know. -/
def databaseWithLost : Database where
  orders :=
    [{ clientOrderId := "lost", symbol := "ETHUSDT", environment := .paper, orderType := .limit,
       side := .sell, quantity := 1, price := some 100, status := .pending, createdAt := 0,
       filledAt := none, fillPrice := none, fee := none, slippageUsdt := none,
       estimatedSlippageUsdt := none, isSimulated := true }]

namespace ReconciliationEngine

theorem paper_reading (symbols : List Symbol) (db : Database) (a : PaperAdapter) (s : Symbol) :
    orderReading PaperAdapter.exchange symbols db a s =
      if s ∈ orderSymbols symbols db then some (a.getOpenOrders s) else none :=
  readingOf_of_unchanged (fun _ _ => rfl) _ _ _

/-- The simulation shows the orders of a symbol under that symbol. -/
theorem paper_ownSymbols (symbols : List Symbol) (db : Database) (a : PaperAdapter) :
    OwnSymbols PaperAdapter.exchange symbols db a := by
  intro s l hl o ho
  rw [paper_reading] at hl
  split at hl
  · cases hl
    exact (of_decide_eq_true (List.mem_filter.mp ho).2).1
  · cases hl

theorem hiding_reading (symbols : List Symbol) (db : Database) (a : PaperAdapter)
    (F : List Symbol) (s : Symbol) :
    orderReading (PaperAdapter.exchange.hiding F) symbols db a s =
      if s ∈ F then none else orderReading PaperAdapter.exchange symbols db a s := by
  have hread : ∀ s a, ((PaperAdapter.exchange.hiding F).getOpenOrders s a).2 = a := by
    intro s a
    simp only [ExchangeAdapter.hiding]
    split <;> rfl
  rw [orderReading, readingOf_of_unchanged hread, paper_reading]
  by_cases hs : s ∈ F
  · simp [ExchangeAdapter.hiding, hs, Except.toOption]
  · simp only [ExchangeAdapter.hiding, if_neg hs]
    rfl

theorem stray_and_lost_matchable :
    Matchable PaperAdapter.exchange ["BTCUSDT"] databaseWithLost paperWithStray where
  few := by decide
  unique := by decide
  distinct := by decide +kernel
  sameSymbol := by
    intro o ho row hk
    have hstray : ∀ o ∈ liveOrders PaperAdapter.exchange ["BTCUSDT"] databaseWithLost
        paperWithStray, o.clientOrderId ≠ "lost" := by decide +kernel
    obtain ⟨hm, he⟩ := hk
    simp only [databaseWithLost, List.append_nil, List.mem_singleton] at hm
    rw [hm] at he
    exact absurd he.symm (hstray o ho)

theorem stray_and_lost_reported :
    ExactReport PaperAdapter.exchange ["BTCUSDT"] databaseWithLost paperWithStray
      (reconcileOrders PaperAdapter.exchange ["BTCUSDT"] databaseWithLost paperWithStray).1.1 ∧
    (reconcileOrders (PaperAdapter.exchange.hiding ["ETHUSDT"]) ["BTCUSDT"] databaseWithLost
        paperWithStray).1.1.filter (·.symbol ∉ ["ETHUSDT"]) =
      (reconcileOrders PaperAdapter.exchange ["BTCUSDT"] databaseWithLost
        paperWithStray).1.1.filter (·.symbol ∉ ["ETHUSDT"]) := by
  have h := order_reconciliation_exact stray_and_lost_matchable
  refine ⟨h.1, (h.2 (paper_ownSymbols _ _ _) _ _ paperWithStray ["ETHUSDT"] ?_ ?_).2⟩
  · intro s hs
    rw [hiding_reading, if_pos hs]
  · intro s hs
    rw [hiding_reading, if_neg hs]

end ReconciliationEngine

end FuturesBot
