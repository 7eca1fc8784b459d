import FuturesBot.Execution.Identity

namespace FuturesBot
open Lib ExecutionEngine

/-- A row as it is read back, once a commit has expired what the session held of it. -/
def OrderRow.reloaded (row : OrderRow) : OrderRow :=
  { row with
    quantity := numericColumn row.quantity
    price := row.price.map numericColumn
    fillPrice := row.fillPrice.map numericColumn
    fee := row.fee.map numericColumn
    slippageUsdt := row.slippageUsdt.map numericColumn
    estimatedSlippageUsdt := row.estimatedSlippageUsdt.map numericColumn }

/-- What a retry must not change of an execution. -/
structure ExecutionOutcome where
  status : OrderStatus
  quantityFilled : Amount
  quantityRequested : Amount
  fillPrice : Option Amount
  feeUsdt : Amount
  tradeId : Option RowId
  deriving DecidableEq

def ExecutionResult.outcome (x : ExecutionResult) : ExecutionOutcome where
  status := x.orderResult.status
  quantityFilled := x.orderResult.quantityFilled
  quantityRequested := x.orderResult.quantityRequested
  fillPrice := x.orderResult.fillPrice
  feeUsdt := x.orderResult.feeUsdt
  tradeId := x.tradeId

/-- What a retry reads back of an answer from the row of its order. -/
def OrderResult.reloaded (answer : OrderResult) (tradeId : Option RowId) : ExecutionOutcome where
  status := answer.status
  quantityFilled := if answer.status = .filled then numericColumn answer.quantityFilled else 0
  quantityRequested := numericColumn
    (if answer.status = .filled then answer.quantityFilled else answer.quantityRequested)
  fillPrice := answer.fillPrice.map numericColumn
  feeUsdt := numericColumn answer.feeUsdt
  tradeId := tradeId

/-- The answer of the exchange fits into the row of its order: it is filled whole or not at
all, comes under the decision's identifier, and has no more decimals than the columns. -/
structure FitsOrderRow (d : ModelDecision) (answer : OrderResult) : Prop where
  under : answer.clientOrderId = d.decisionId
  whole : answer.status = .filled → answer.quantityFilled = answer.quantityRequested
  nothing : answer.status ≠ .filled → answer.quantityFilled = 0
  quantity : IsDecimal quantPlaces answer.quantityRequested
  fillPrice : ∀ price ∈ answer.fillPrice, IsDecimal quantPlaces price
  fee : IsDecimal quantPlaces answer.feeUsdt

theorem Database.getByClientOrderId_added {db : Database} (hn : db.getByClientOrderId oid = none)
    (row : OrderRow) : { db with orders := db.orders ++ [row] }.getByClientOrderId oid =
      if row.clientOrderId = oid then some row else none := by
  unfold getByClientOrderId at hn ⊢
  rw [List.find?_append, Option.or_eq_none_iff] at hn
  dsimp only
  rw [List.find?_append, List.find?_append, hn.1, hn.2, Option.or_none, Option.none_or]
  by_cases hid : row.clientOrderId = oid
  · rw [if_pos hid]
    exact List.find?_cons_of_pos (by simpa using hid)
  · rw [if_neg hid, List.find?_cons_of_neg (by simpa using hid), List.find?_nil]

namespace ExecutionEngine

variable {A : ExchangeAdapter σ} {st st₁ st₂ : TradingState σ}

theorem executeApprovedPlan_records (hsent : sentOrder A d r estimate st = some (atr1h, request, x))
    (hplaced : A.placeOrder request x = (.ok answer, x')) :
    st.session.working.getByClientOrderId d.decisionId = none ∧ ∃ adjusted,
      executeApprovedPlan A s d r estimate st =
        recordEntry s d adjusted atr1h estimate answer { st with exchange := x' } := by
  unfold sentOrder at hsent
  unfold executeApprovedPlan
  cases hex : st.session.working.getByClientOrderId d.decisionId with
  | some row =>
    rw [hex] at hsent
    cases hsent
  | none =>
    rw [hex] at hsent
    rcases hplan : admitPlan d r (st.session.working.latestAtr d.symbol) with e | ⟨adjusted, atr⟩
    · rw [hplan] at hsent
      cases hsent
    · rw [hplan] at hsent
      dsimp only at hsent ⊢
      rcases hp : prepareOrder A d adjusted estimate st.exchange with ⟨e | request', y⟩
      · rw [hp] at hsent
        cases hsent
      · rw [hp] at hsent
        cases hsent
        refine ⟨rfl, adjusted, ?_⟩
        dsimp only
        rw [hplaced]

/-- An order that is not sent, for a decision without a row, raises. -/
theorem executeApprovedPlan_raises (hsent : sentOrder A d r estimate st = none)
    (hn : st.session.working.getByClientOrderId d.decisionId = none) :
    ∃ e, (executeApprovedPlan A s d r estimate st).1 = .error e := by
  unfold sentOrder at hsent
  unfold executeApprovedPlan
  rw [hn] at hsent ⊢
  rcases hplan : admitPlan d r (st.session.working.latestAtr d.symbol) with e | ⟨adjusted, atr⟩
  · exact ⟨e, rfl⟩
  · rw [hplan] at hsent
    dsimp only at hsent ⊢
    rcases hp : prepareOrder A d adjusted estimate st.exchange with ⟨e | request, y⟩
    · exact ⟨e, rfl⟩
    · rw [hp] at hsent
      cases hsent

theorem modify_added (l : List OrderRow) (row : OrderRow) (f : OrderRow → OrderRow) :
    (l ++ [row]).modify l.length f = l ++ [f row] := by
  induction l with
  | nil => rfl
  | cons o l ih => simp [ih]

/-- The row that a first call commits, linked to the trade that it returns. -/
theorem recordEntry_commits {oid : ClientOrderId}
    (h : recordEntry s d adjusted atr1h estimate answer st = (.ok first, st₁))
    (hn : st.session.working.getByClientOrderId oid = none) :
    first.orderResult = answer ∧
    st₁.session.committed.getByClientOrderId oid =
      if answer.clientOrderId = oid then
        some { orderRow s d answer estimate st.session.now with tradeId := first.tradeId }
      else none := by
  unfold recordEntry at h
  dsimp only at h
  split at h
  · cases h
    exact ⟨rfl, Database.getByClientOrderId_added hn _⟩
  split at h
  · cases h
  split at h
  · cases h
  · cases h
    refine ⟨rfl, ?_⟩
    have hadded := Database.getByClientOrderId_added hn
      { orderRow s d answer estimate st.session.now with
        tradeId := some st.session.working.trades.length }
    unfold Database.getByClientOrderId at hadded ⊢
    dsimp only [Session.commit, Session.addPosition, Session.linkTrade, Session.addTrade,
      Session.addOrder] at hadded ⊢
    rw [modify_added]
    exact hadded

/-- A row answers a retry with what is read back of its amounts. -/
theorem resultFromExistingOrder_reloaded (s : ExecutionSettings) (d : ModelDecision)
    (answer : OrderResult) (estimate : Option SlippageEstimate) (now : Timestamp)
    (tradeId : Option RowId) (rowId : RowId) :
    ∃ second, resultFromExistingOrder rowId
      { orderRow s d answer estimate now with tradeId := tradeId }.reloaded = .ok second ∧
      second.outcome = answer.reloaded tradeId := by
  obtain ⟨hfilled, hprice, hfee, hslippage⟩ := answer.valid
  unfold resultFromExistingOrder
  rw [OrderResult.build_of_valid]
  · refine ⟨_, rfl, ?_⟩
    unfold ExecutionResult.outcome OrderResult.reloaded
    by_cases hs : answer.status = .filled
    · simp [OrderRow.reloaded, orderRow, hs]
    · simp [OrderRow.reloaded, orderRow, hs]
  · refine ⟨?_, ?_, ?_, ?_⟩
    · by_cases hs : answer.status = .filled
      · simpa [OrderRow.reloaded, orderRow, hs] using numericColumn_nonneg hfilled
      · simp [OrderRow.reloaded, orderRow, hs]
    · intro price hp
      obtain ⟨price', hp', rfl⟩ := Option.map_eq_some_iff.mp hp
      exact numericColumn_nonneg (hprice price' hp')
    · exact numericColumn_nonneg hfee
    · intro slippage hp
      obtain ⟨slippage', hp', rfl⟩ := Option.map_eq_some_iff.mp hp
      apply numericColumn_nonneg
      by_cases hs : answer.status = .filled
      · exact hslippage slippage' (by simpa [orderRow, hs] using hp')
      · simp [orderRow, hs] at hp'

/-- What is read back is what was answered just when the answer fits into its row. -/
theorem outcome_reloaded_iff {first : ExecutionResult} (h : first.orderResult = answer)
    (hid : answer.clientOrderId = d.decisionId) :
    answer.reloaded first.tradeId = first.outcome ↔ FitsOrderRow d answer := by
  subst h
  have hprices : first.orderResult.fillPrice.map numericColumn = first.orderResult.fillPrice ↔
      ∀ price ∈ first.orderResult.fillPrice, IsDecimal quantPlaces price := by
    cases first.orderResult.fillPrice with
    | none => simp
    | some price => simp [numericColumn_eq_self_iff]
  unfold OrderResult.reloaded ExecutionResult.outcome
  rw [ExecutionOutcome.mk.injEq, hprices, numericColumn_eq_self_iff]
  by_cases hs : first.orderResult.status = .filled
  · rw [if_pos hs, if_pos hs, numericColumn_eq_self_iff]
    constructor
    · rintro ⟨-, hfilled, hrequested, hprice, hfee, -⟩
      have hwhole : first.orderResult.quantityFilled = first.orderResult.quantityRequested :=
        (numericColumn_eq_self_iff.mpr hfilled).symm.trans hrequested
      exact ⟨hid, fun _ => hwhole, fun h => absurd hs h, hwhole ▸ hfilled, hprice, hfee⟩
    · intro h
      have hquantity := h.quantity
      rw [← h.whole hs] at hquantity
      exact ⟨rfl, hquantity, (numericColumn_eq_self_iff.mpr hquantity).trans (h.whole hs),
        h.fillPrice, h.fee, rfl⟩
  · rw [if_neg hs, if_neg hs, numericColumn_eq_self_iff]
    constructor
    · rintro ⟨-, hnothing, hrequested, hprice, hfee, -⟩
      exact ⟨hid, fun h => absurd h hs, fun _ => hnothing.symm, hrequested, hprice, hfee⟩
    · intro h
      exact ⟨rfl, (h.nothing hs).symm, h.quantity, h.fillPrice, h.fee, rfl⟩

/-- A second call for the decision, whatever else it is given, sends no order, changes nothing
and returns what the first one returned. -/
def Repeats (A : ExchangeAdapter σ) (s : ExecutionSettings) (d : ModelDecision)
    (first : ExecutionResult) (st₂ : TradingState σ) : Prop :=
  ∀ r estimate, sentOrder A d r estimate st₂ = none ∧
    ∃ second, executeApprovedPlan A s d r estimate st₂ = (.ok second, st₂) ∧
      second.outcome = first.outcome

/-- A later state, in which the decision's row is read back from what `st₁` has committed. -/
def ReadsBack (d : ModelDecision) (st₁ st₂ : TradingState σ) : Prop :=
  st₂.session.working.getByClientOrderId d.decisionId =
    (st₁.session.committed.getByClientOrderId d.decisionId).map OrderRow.reloaded

/-- The state `st₁` once its row of the decision, and nothing else, has been read back. -/
def reread (d : ModelDecision) (st₁ : TradingState σ) : TradingState σ :=
  { st₁ with
    session := { working := { orders :=
      ((st₁.session.committed.getByClientOrderId d.decisionId).map OrderRow.reloaded).toList } } }

theorem readsBack_reread (d : ModelDecision) (st₁ : TradingState σ) :
    ReadsBack d st₁ (reread d st₁) := by
  unfold ReadsBack reread
  rcases hfound : st₁.session.committed.getByClientOrderId d.decisionId with _ | row
  · rfl
  · have hid : row.clientOrderId = d.decisionId := by simpa using List.find?_some hfound
    exact List.find?_cons_of_pos (decide_eq_true hid)

/-- Every retry answers as the first call did just when the exchange's answer to the first
call fits into the row of its order. -/
theorem retry_repeats_iff (hsent : sentOrder A d r estimate st = some (atr1h, request, x))
    (hplaced : A.placeOrder request x = (.ok answer, x'))
    (hfirst : executeApprovedPlan A s d r estimate st = (.ok first, st₁)) :
    (∀ st₂, ReadsBack d st₁ st₂ → Repeats A s d first st₂) ↔ FitsOrderRow d answer := by
  obtain ⟨hn, adjusted, hrecord⟩ := executeApprovedPlan_records (s := s) hsent hplaced
  obtain ⟨hanswer, hstored⟩ := recordEntry_commits (hrecord.symm.trans hfirst) hn
  by_cases hid : answer.clientOrderId = d.decisionId
  · rw [if_pos hid] at hstored
    have hretry : ∀ st₂, ReadsBack d st₁ st₂ →
        (Repeats A s d first st₂ ↔ FitsOrderRow d answer) := by
      intro st₂ hback
      rw [ReadsBack, hstored] at hback
      rw [← outcome_reloaded_iff hanswer hid]
      have hfound : st₂.session.working.getByClientOrderId d.decisionId = some _ := hback
      have hanswers : ∀ r estimate, sentOrder A d r estimate st₂ = none ∧
          ∃ second, executeApprovedPlan A s d r estimate st₂ = (.ok second, st₂) ∧
            second.outcome = answer.reloaded first.tradeId := by
        intro r' estimate'
        obtain ⟨second, hsecond, hsame⟩ := resultFromExistingOrder_reloaded s d answer estimate
          st.session.now first.tradeId ((st₂.session.working.orders ++
            st₂.session.working.ordersOfOtherRuns).findIdx (·.clientOrderId = d.decisionId))
        refine ⟨?_, second, ?_, hsame⟩
        · rw [sentOrder, hfound]
        · rw [executeApprovedPlan, hfound]
          exact congrArg (·, st₂) hsecond
      constructor
      · intro hrepeats
        obtain ⟨-, second, hsecond, hsame⟩ := hanswers r estimate
        obtain ⟨-, second', hsecond', hsame'⟩ := hrepeats r estimate
        rw [hsecond] at hsecond'
        cases hsecond'
        exact hsame.symm.trans hsame'
      · intro hreloaded r' estimate'
        obtain ⟨hunsent, second, hsecond, hsame⟩ := hanswers r' estimate'
        exact ⟨hunsent, second, hsecond, hsame.trans hreloaded⟩
    have hback := readsBack_reread d st₁
    refine ⟨fun hall => (hretry _ hback).mp (hall _ hback), ?_⟩
    intro hfits st₂ hback
    exact (hretry st₂ hback).mpr hfits
  · rw [if_neg hid] at hstored
    refine iff_of_false ?_ (fun h => hid h.under)
    intro hall
    have hback := readsBack_reread d st₁
    have hnone : (reread d st₁).session.working.getByClientOrderId d.decisionId = none := by
      rw [hback, hstored]
      rfl
    obtain ⟨hunsent, second, hsecond, -⟩ := hall _ hback r estimate
    obtain ⟨e, he⟩ := executeApprovedPlan_raises (s := s) hunsent hnone
    rw [hsecond] at he
    cases he

end ExecutionEngine

/-- An exchange that cancels every order once a half of it has been filled. -/
def cancelsHalf : ExchangeAdapter PaperAdapter :=
  { PaperAdapter.exchange with
    placeOrder := fun req a =>
      (OrderResult.build
        { clientOrderId := req.clientOrderId, symbol := req.symbol, side := req.side,
          orderType := req.orderType, status := .cancelled, quantityRequested := req.quantity,
          quantityFilled := req.quantity / 2, fillPrice := req.price, feeUsdt := 1 / 100,
          isSimulated := true, timestampUtc := a.now }, a) }

/-- The first call for the sample decision, and what a retry then answers. -/
def retried (A : ExchangeAdapter PaperAdapter) (r : RiskValidationResult) :
    Option (ExecutionOutcome × ExecutionOutcome) :=
  match executeApprovedPlan A paperSettings sampleDecision r none (idleWithAtr 2) with
  | (.error _, _) => none
  | (.ok first, st₁) =>
    ((executeApprovedPlan A paperSettings sampleDecision r none (reread sampleDecision st₁)
      ).1.toOption).map (first.outcome, ·.outcome)

/-- The answer to the order of the sample decision. -/
def answered (A : ExchangeAdapter PaperAdapter) (r : RiskValidationResult) : Option OrderResult :=
  (sentOrder A sampleDecision r none (idleWithAtr 2)).bind
    fun sent => (A.placeOrder sent.2.1 sent.2.2).1.toOption

/-- The answer fits into its row, by evaluation. -/
def fits (answer : OrderResult) : Bool :=
  answer.clientOrderId = sampleDecision.decisionId ∧ answer.status = .filled ∧
    answer.quantityFilled = answer.quantityRequested ∧
    numericColumn answer.quantityRequested = answer.quantityRequested ∧
    (∀ price ∈ answer.fillPrice, numericColumn price = price) ∧
    numericColumn answer.feeUsdt = answer.feeUsdt

theorem fitsOrderRow_of_fits (h : fits answer = true) : FitsOrderRow sampleDecision answer := by
  obtain ⟨hid, hs, hwhole, hquantity, hprice, hfee⟩ := of_decide_eq_true h
  refine ⟨hid, fun _ => hwhole, fun hn => absurd hs hn, ?_, ?_, ?_⟩
  · exact numericColumn_eq_self_iff.mp hquantity
  · intro price hm
    exact numericColumn_eq_self_iff.mp (hprice price hm)
  · exact numericColumn_eq_self_iff.mp hfee

theorem paper_entry_repeats : ∃ r first st₁,
    approvedSample = some r ∧
    executeApprovedPlan PaperAdapter.exchange paperSettings sampleDecision r none (idleWithAtr 2) =
      (.ok first, st₁) ∧
    ∀ st₂, ReadsBack sampleDecision st₁ st₂ →
      Repeats PaperAdapter.exchange paperSettings sampleDecision first st₂ := by
  have hdone : (approvedSample.any fun r => (answered PaperAdapter.exchange r).any fits &&
      (executeApprovedPlan PaperAdapter.exchange paperSettings sampleDecision r none
        (idleWithAtr 2)).1.isOk) = true := by decide +kernel
  obtain ⟨r, hr, hdone⟩ := (Option.any_eq_true _ _).mp hdone
  obtain ⟨hany, hok⟩ := Bool.and_eq_true_iff.mp hdone
  obtain ⟨answer, hanswered, hfits⟩ := (Option.any_eq_true _ _).mp hany
  obtain ⟨⟨atr1h, request, x⟩, hsent, hanswer⟩ := Option.bind_eq_some_iff.mp hanswered
  rcases hplaced : PaperAdapter.exchange.placeOrder request x with ⟨e | answer', x'⟩
  · rw [hplaced] at hanswer
    cases hanswer
  · rw [hplaced] at hanswer
    cases hanswer
    rcases hfirst : executeApprovedPlan PaperAdapter.exchange paperSettings sampleDecision r none
        (idleWithAtr 2) with ⟨e | first, st₁⟩
    · rw [hfirst] at hok
      cases hok
    · exact ⟨r, first, st₁, hr, hfirst,
        (retry_repeats_iff hsent hplaced hfirst).mpr (fitsOrderRow_of_fits hfits)⟩

/-- A retry of the cancelled entry says that nothing of it was filled. -/
theorem cancelled_half_forgotten :
    ¬∀ (A : ExchangeAdapter PaperAdapter) (r : RiskValidationResult) (first : ExecutionResult)
      (st₁ st₂ : TradingState PaperAdapter), approvedSample = some r →
      executeApprovedPlan A paperSettings sampleDecision r none (idleWithAtr 2) =
        (.ok first, st₁) → ReadsBack sampleDecision st₁ st₂ →
      Repeats A paperSettings sampleDecision first st₂ := by
  intro h
  have hdiffer : ((approvedSample.bind (retried cancelsHalf)).any fun p => p.1 ≠ p.2) = true := by
    decide +kernel
  obtain ⟨p, hp, hne⟩ := (Option.any_eq_true _ _).mp hdiffer
  obtain ⟨r, hr, hretried⟩ := Option.bind_eq_some_iff.mp hp
  unfold retried at hretried
  rcases hfirst : executeApprovedPlan cancelsHalf paperSettings sampleDecision r none
      (idleWithAtr 2) with ⟨e | first, st₁⟩
  · rw [hfirst] at hretried
    cases hretried
  · rw [hfirst] at hretried
    obtain ⟨second, hsecond, rfl⟩ := Option.map_eq_some_iff.mp hretried
    have hback := readsBack_reread sampleDecision st₁
    obtain ⟨-, second', hsecond', hsame⟩ :=
      h cancelsHalf r first st₁ (reread sampleDecision st₁) hr hfirst hback r none
    rw [hsecond'] at hsecond
    cases hsecond
    exact of_decide_eq_true hne hsame.symm

end FuturesBot
