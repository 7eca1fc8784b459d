import FuturesBot.Execution.Exposure
import FuturesBot.Lib.Runs

namespace FuturesBot
open Lib ExecutionEngine

/-- What an order is about. -/
structure OrderTerms where
  symbol : Symbol
  side : OrderSide
  quantity : Amount
  deriving DecidableEq

def OrderRequestFields.terms (f : OrderRequestFields) : OrderTerms := ⟨f.symbol, f.side, f.quantity⟩

def OrderResultFields.terms (f : OrderResultFields) : OrderTerms :=
  ⟨f.symbol, f.side, f.quantityRequested⟩

def OrderRow.terms (row : OrderRow) : OrderTerms := ⟨row.symbol, row.side, row.quantity⟩

/-- A decision with the parameters that the risk engine has approved for it. -/
structure ApprovedPlan where
  decision : ModelDecision
  result : RiskValidationResult
  parameters : AdjustedParameters
  approved : result.adjustedParameters = some parameters

def ApprovedPlan.terms (plan : ApprovedPlan) : OrderTerms :=
  ⟨plan.decision.symbol, entrySide plan.decision,
    computeQuantity plan.parameters.marginUsdt plan.parameters.leverage plan.decision⟩

/-- An order under this identifier and with these terms; if it is filled, it is filled whole. -/
structure Carries (oid : ClientOrderId) (terms : OrderTerms) (o : OrderResult) : Prop where
  under : o.clientOrderId = oid
  asked : o.terms = terms
  whole : o.status = .filled → o.quantityFilled = o.quantityRequested

/-- What is asked of an exchange: a new order is answered and kept as it was asked for, and
nothing else is kept anew. `known` is what the exchange holds under an identifier. -/
structure RemembersOrders (A : ExchangeAdapter σ) (known : σ → ClientOrderId → Option OrderResult) :
    Prop where
  setMarginType : ∀ s m x, known (A.setMarginType s m x).2 = known x
  setLeverage : ∀ s l x, known (A.setLeverage s l x).2 = known x
  placed : ∀ request x oid o, known (A.placeOrder request x).2 oid = some o →
    known x oid = some o ∨ oid = request.clientOrderId ∧ Carries oid request.terms o
  answered : ∀ request x result x', A.placeOrder request x = (.ok result, x') →
    known x request.clientOrderId = some result ∨
      Carries request.clientOrderId request.terms result

namespace PaperAdapter

theorem fillMarketOrder_carries (h : fillMarketOrder req a = (.ok result, a')) :
    Carries req.clientOrderId req.terms result := by
  unfold fillMarketOrder at h
  split at h
  · cases h
  · split at h
    · cases h
    · dsimp only at h
      split at h
      · cases h
      · have hf := OrderResult.build_ok (congrArg Prod.fst h)
        refine ⟨congrArg (·.clientOrderId) hf, ?_, ?_⟩
        · rw [hf]
          rfl
        · rw [hf]
          exact fun _ => rfl

theorem registerPendingOrder_carries (h : registerPendingOrder req a = (.ok result, a')) :
    Carries req.clientOrderId req.terms result := by
  obtain ⟨hb, rfl⟩ := Prod.mk.inj h
  have hf := OrderResult.build_ok hb
  refine ⟨congrArg (·.clientOrderId) hf, ?_, ?_⟩
  · rw [hf]
    rfl
  · intro hfilled
    rw [hf] at hfilled
    cases hfilled

theorem placeOrder_carries (h : placeOrder req a = (.ok result, a')) :
    a.orders.get req.clientOrderId = some result ∨
      Carries req.clientOrderId req.terms result := by
  unfold placeOrder at h
  split at h
  · rename_i hknown
    cases h
    exact .inl hknown
  · dsimp only at h
    split at h
    · cases h
    · rename_i hm
      cases h
      split at hm
      · exact .inr (fillMarketOrder_carries hm)
      · exact .inr (registerPendingOrder_carries hm)

/-- An order that raises is not recorded, and one that returns is recorded as it returns. -/
theorem placeOrder_recorded (req : OrderRequest) (a : PaperAdapter) :
    (placeOrder req a).2.orders.get req.clientOrderId = a.orders.get req.clientOrderId ∨
    ∃ result a', placeOrder req a = (.ok result, a') ∧
      a'.orders.get req.clientOrderId = some result := by
  have horders : (if req.orderType = .market then fillMarketOrder req a
      else registerPendingOrder req a).2.orders = a.orders := by
    split
    · obtain ⟨_, _, hm⟩ := fillMarketOrder_moved req a
      rw [hm]
    · rfl
  unfold placeOrder
  split
  · exact .inl rfl
  · dsimp only
    split
    · rename_i hm
      rw [hm] at horders
      exact .inl (by rw [horders])
    · exact .inr ⟨_, _, rfl, by rw [Dict.get_set, if_pos rfl]⟩

theorem exchange_remembersOrders : RemembersOrders exchange (fun a => a.orders.get) where
  setMarginType s m a := by
    simp only [exchange, setMarginType]
    split <;> rfl
  setLeverage s l a := by
    simp only [exchange, setLeverage]
    split <;> rfl
  placed request a oid o h := by
    by_cases hid : oid = request.clientOrderId
    · subst hid
      rcases placeOrder_recorded request a with hsame | ⟨result, a', hok, hnew⟩
      · exact .inl (hsame.symm.trans h)
      · have hplaced : (exchange.placeOrder request a) = (.ok result, a') := hok
        rw [hplaced, hnew] at h
        cases h
        rcases placeOrder_carries hok with hknown | hcarries
        · exact .inl hknown
        · exact .inr ⟨rfl, hcarries⟩
    · exact .inl ((placeOrder_orders request a hid).symm.trans h)
  answered request a result a' h := placeOrder_carries h

end PaperAdapter

namespace Session

theorem getByClientOrderId_addOrder
    (h : (addOrder row s).working.getByClientOrderId oid = some found) :
    s.working.getByClientOrderId oid = some found ∨ oid = row.clientOrderId ∧ found = row := by
  unfold addOrder Database.getByClientOrderId at h
  unfold Database.getByClientOrderId
  dsimp only at h
  rw [List.find?_append, List.find?_append, Option.or_assoc] at h
  rw [List.find?_append]
  rcases horders : s.working.orders.find? (·.clientOrderId = oid) with _ | old
  · rw [horders, Option.none_or] at h
    by_cases hid : row.clientOrderId = oid
    · rw [List.find?_cons_of_pos (by simpa using hid), Option.some_or] at h
      exact .inr ⟨hid.symm, (Option.some.inj h).symm⟩
    · rw [List.find?_cons_of_neg (by simpa using hid), List.find?_nil, Option.none_or] at h
      exact .inl (by rw [horders, Option.none_or, h])
  · rw [horders, Option.some_or] at h
    exact .inl (by rw [horders, Option.some_or, h])

/-- A link changes no order's terms. -/
theorem getByClientOrderId_linkTrade
    (h : (linkTrade order trade s).working.getByClientOrderId oid = some found) :
    ∃ old, s.working.getByClientOrderId oid = some old ∧ old.terms = found.terms := by
  let key : OrderRow → ClientOrderId × OrderTerms := fun o => (o.clientOrderId, o.terms)
  have hmap : (linkTrade order trade s).working.orders.map key = s.working.orders.map key := by
    apply List.ext_getElem?
    intro n
    simp only [linkTrade, List.getElem?_map, List.getElem?_modify]
    cases s.working.orders[n]? with
    | none => rfl
    | some o =>
      by_cases hn : order = n
      · simp only [hn, if_pos, Option.map_some]
        rfl
      · simp only [if_neg hn]
        rfl
  have hfind : ∀ l : List OrderRow, (l.find? (·.clientOrderId = oid)).map key =
      (l.map key).find? (fun k => k.1 = oid) := by
    intro l
    rw [List.find?_map]
    rfl
  have hsame := hfind ((linkTrade order trade s).working.orders ++
    (linkTrade order trade s).working.ordersOfOtherRuns)
  rw [List.map_append, hmap, ← List.map_append] at hsame
  have hold := (hfind (s.working.orders ++ s.working.ordersOfOtherRuns)).trans hsame.symm
  unfold Database.getByClientOrderId at h ⊢
  rw [h] at hold
  obtain ⟨old, hfound, hkey⟩ := Option.map_eq_some_iff.mp hold
  exact ⟨old, hfound, congrArg Prod.snd hkey⟩

end Session

namespace ExecutionEngine

variable {A : ExchangeAdapter σ} {known : σ → ClientOrderId → Option OrderResult}

theorem orderRow_terms (s : ExecutionSettings) (d : ModelDecision)
    (estimate : Option SlippageEstimate) (now : Timestamp) (h : Carries oid terms result) :
    (orderRow s d result estimate now).clientOrderId = oid ∧
      (orderRow s d result estimate now).terms = terms := by
  obtain ⟨hid, rfl, hwhole⟩ := h
  refine ⟨hid, ?_⟩
  unfold orderRow OrderRow.terms
  by_cases hf : result.status = .filled
  · rw [if_pos hf, hwhole hf]
    rfl
  · rw [if_neg hf]
    rfl

/-- What the answer to an entry leaves in the tables is its order, and the call returns it. -/
theorem recordEntry_identified (hr : Carries oid terms result)
    (h : recordEntry s d p atr1h estimate result st = (o, st')) :
    (∀ execution, o = .ok execution → execution.orderResult = result) ∧
    st'.session.working.decisions = st.session.working.decisions ∧
    ∀ oid' row, st'.session.working.getByClientOrderId oid' = some row →
      (∃ old, st.session.working.getByClientOrderId oid' = some old ∧ old.terms = row.terms) ∨
      oid' = oid ∧ row.terms = terms := by
  obtain ⟨hid, hterms⟩ := orderRow_terms s d estimate st.session.now hr
  have hadded : ∀ oid' row, (st.session.addOrder (orderRow s d result estimate st.session.now)
      ).working.getByClientOrderId oid' = some row →
      (∃ old, st.session.working.getByClientOrderId oid' = some old ∧ old.terms = row.terms) ∨
      oid' = oid ∧ row.terms = terms := by
    intro oid' row hfound
    rcases Session.getByClientOrderId_addOrder hfound with hold | ⟨hnew, hrow⟩
    · exact .inl ⟨row, hold, rfl⟩
    · exact .inr ⟨hnew.trans hid, by rw [hrow, hterms]⟩
  have hlinked : ∀ order trade oid' row, ((st.session.addOrder
      (orderRow s d result estimate st.session.now)).linkTrade order trade
      ).working.getByClientOrderId oid' = some row →
      (∃ old, st.session.working.getByClientOrderId oid' = some old ∧ old.terms = row.terms) ∨
      oid' = oid ∧ row.terms = terms := by
    intro order trade oid' row hfound
    obtain ⟨old, hold, hsame⟩ := Session.getByClientOrderId_linkTrade hfound
    rw [← hsame]
    exact hadded oid' old hold
  unfold recordEntry at h
  dsimp only at h
  split at h
  · cases h
    exact ⟨fun _ h => (by cases h; rfl), rfl, hadded⟩
  split at h
  · cases h
    exact ⟨fun _ h => (by cases h), rfl, hadded⟩
  split at h
  · cases h
    exact ⟨fun _ h => (by cases h), rfl, hlinked _ _⟩
  · cases h
    exact ⟨fun _ h => (by cases h; rfl), rfl, hlinked _ _⟩

theorem buildOrderRequest_terms (h : buildOrderRequest d quantity estimate = .ok request) :
    request.clientOrderId = d.decisionId ∧ request.terms = ⟨d.symbol, entrySide d, quantity⟩ := by
  have hf := OrderRequest.build_ok h
  rw [hf]
  exact ⟨rfl, rfl⟩

theorem prepareOrder_known (hA : RemembersOrders A known) (d : ModelDecision)
    (p : AdjustedParameters) (estimate : Option SlippageEstimate) (x : σ) :
    known (prepareOrder A d p estimate x).2 = known x :=
  prepareOrder_same hA.setMarginType hA.setLeverage d p estimate x

theorem resultFromExistingOrder_terms (h : resultFromExistingOrder rowId row = .ok execution) :
    execution.orderResult.terms = row.terms := by
  unfold resultFromExistingOrder at h
  split at h
  · cases h
  · rename_i result hb
    cases h
    have hf := OrderResult.build_ok hb
    rw [hf]
    rfl

/-- Where the orders that are stored under a plan's identifier have its terms, so does the
order that the plan returns, and so does whatever it adds to the stores. -/
theorem executeApprovedPlan_identified (hA : RemembersOrders A known) {plan : ApprovedPlan}
    (hrow : ∀ row, st.session.working.getByClientOrderId plan.decision.decisionId = some row →
      row.terms = plan.terms)
    (hknown : ∀ order, known st.exchange plan.decision.decisionId = some order →
      Carries plan.decision.decisionId plan.terms order)
    (h : executeApprovedPlan A s plan.decision plan.result estimate st = (o, st')) :
    (∀ execution, o = .ok execution → execution.orderResult.terms = plan.terms) ∧
    st'.session.working.decisions = st.session.working.decisions ∧
    (∀ oid order, known st'.exchange oid = some order → known st.exchange oid = some order ∨
      oid = plan.decision.decisionId ∧ Carries oid plan.terms order) ∧
    ∀ oid row, st'.session.working.getByClientOrderId oid = some row →
      (∃ old, st.session.working.getByClientOrderId oid = some old ∧ old.terms = row.terms) ∨
      oid = plan.decision.decisionId ∧ row.terms = plan.terms := by
  have hkept : ∀ oid row, st.session.working.getByClientOrderId oid = some row →
      (∃ old, st.session.working.getByClientOrderId oid = some old ∧ old.terms = row.terms) ∨
      oid = plan.decision.decisionId ∧ row.terms = plan.terms :=
    fun oid row hfound => .inl ⟨row, hfound, rfl⟩
  unfold executeApprovedPlan at h
  cases hex : st.session.working.getByClientOrderId plan.decision.decisionId with
  | some row =>
    rw [hex] at h
    cases h
    refine ⟨?_, rfl, fun _ _ hold => .inl hold, hkept⟩
    intro execution hexecution
    exact (resultFromExistingOrder_terms hexecution).trans (hrow row hex)
  | none =>
    rw [hex] at h
    cases hplan : admitPlan plan.decision plan.result
        (st.session.working.latestAtr plan.decision.symbol) with
    | error e =>
      rw [hplan] at h
      cases h
      exact ⟨fun _ he => (by cases he), rfl, fun _ _ hold => .inl hold, hkept⟩
    | ok admitted =>
      obtain ⟨adjusted, atr1h⟩ := admitted
      have hparams : adjusted = plan.parameters :=
        Option.some.inj ((admitPlan_ok hplan).2.2.symm.trans plan.approved)
      subst hparams
      rw [hplan] at h
      dsimp only at h
      have hsettings := prepareOrder_known hA plan.decision plan.parameters estimate st.exchange
      rcases hp : prepareOrder A plan.decision plan.parameters estimate st.exchange
        with ⟨e | request, x⟩
      · rw [hp] at h hsettings
        cases h
        refine ⟨fun _ he => (by cases he), rfl, fun _ _ hold => .inl ?_, hkept⟩
        rw [← hsettings]
        exact hold
      · obtain ⟨hid, hterms⟩ := buildOrderRequest_terms (prepareOrder_built hp)
        rw [hp] at h hsettings
        dsimp only at h
        have hplaced : ∀ oid order, known (A.placeOrder request x).2 oid = some order →
            known st.exchange oid = some order ∨
              oid = plan.decision.decisionId ∧ Carries oid plan.terms order := by
          intro oid order hnew
          rw [← hsettings, ← hid, ApprovedPlan.terms, ← hterms]
          exact hA.placed request x oid order hnew
        rcases ho : A.placeOrder request x with ⟨e | result, x'⟩
        · rw [ho] at h hplaced
          cases h
          exact ⟨fun _ he => (by cases he), rfl, hplaced, hkept⟩
        · have hcarries : Carries plan.decision.decisionId plan.terms result := by
            rcases hA.answered request x result x' ho with hold | hnew
            · rw [hsettings, hid] at hold
              exact hknown result hold
            · rw [hid, hterms] at hnew
              exact hnew
          rw [ho] at h hplaced
          dsimp only at h
          obtain ⟨hreturned, hdecisions, hrows⟩ := recordEntry_identified hcarries h
          refine ⟨?_, hdecisions, ?_, hrows⟩
          · intro execution hexecution
            rw [hreturned execution hexecution]
            exact hcarries.asked
          · have hexchange := recordEntry_exchange s plan.decision plan.parameters atr1h estimate
              result { st with exchange := x' }
            rw [h] at hexchange
            rw [show st'.exchange = x' from hexchange]
            exact hplaced

end ExecutionEngine

/-- What is asked of the engine and of the audit, one decision after another, and whatever else
happens in between. -/
inductive PlanEvent
  | execute (plan : ApprovedPlan) (estimate : Option SlippageEstimate)
  | audit (d : ModelDecision)
  | other

/-- What happens elsewhere, a restart or a rollback for instance: rows and orders may go, and
what stays keeps its terms. Nothing is added but the worker's own orders, under identifiers
that are `own`. -/
structure AddsOnlyOwn (known : σ → ClientOrderId → Option OrderResult) (own : ClientOrderId → Prop)
    (st st' : TradingState σ) : Prop where
  rows : ∀ oid row, ¬own oid → st'.session.working.getByClientOrderId oid = some row →
    ∃ old, st.session.working.getByClientOrderId oid = some old ∧ old.terms = row.terms
  orders : ∀ oid order, ¬own oid → known st'.exchange oid = some order →
    ∃ old, known st.exchange oid = some old ∧
      ∀ terms, Carries oid terms old → Carries oid terms order
  decisions : ∀ d ∈ st'.session.working.decisions, d ∈ st.session.working.decisions

/-- One step of a run, labelled with the state that it starts in. -/
inductive PlanStep (A : ExchangeAdapter σ) (s : ExecutionSettings)
    (known : σ → ClientOrderId → Option OrderResult) (own : ClientOrderId → Prop) :
    TradingState σ → TradingState σ × PlanEvent → TradingState σ → Prop
  | execute (plan : ApprovedPlan) (estimate : Option SlippageEstimate)
      (h : executeApprovedPlan A s plan.decision plan.result estimate st = (o, st')) :
      PlanStep A s known own st (st, .execute plan estimate) st'
  | audit (d : ModelDecision) (st : TradingState σ) :
      PlanStep A s known own st (st, .audit d)
        { st with session := st.session.auditModelDecision d }
  | other (h : AddsOnlyOwn known own st st') : PlanStep A s known own st (st, .other) st'

/-- A decision comes under an identifier that is not one of the worker's own orders, and that
no earlier plan with other terms, or no earlier decision of other contents, has come under. -/
def OwnIdentifier (own : ClientOrderId → Prop) (before : List (TradingState σ × PlanEvent))
    (t : TradingState σ × PlanEvent) : Prop :=
  match t.2 with
  | .execute plan _ => ¬own plan.decision.decisionId ∧ ∀ t' ∈ before, ∀ plan' estimate',
      t'.2 = .execute plan' estimate' → plan'.decision.decisionId = plan.decision.decisionId →
      plan'.terms = plan.terms
  | .audit d => ∀ t' ∈ before, ∀ d', t'.2 = .audit d' → d'.decisionId = d.decisionId → d' = d
  | .other => True

/-- The plan returns an order of its own terms, and the audit leaves the row of its decision. -/
def Distinguished (A : ExchangeAdapter σ) (s : ExecutionSettings)
    (t : TradingState σ × PlanEvent) : Prop :=
  match t.2 with
  | .execute plan estimate => ∀ execution,
      (executeApprovedPlan A s plan.decision plan.result estimate t.1).1 = .ok execution →
      execution.orderResult.terms = plan.terms
  | .audit d => (t.1.session.auditModelDecision d).working.decisions.find?
      (·.decisionId = d.decisionId) = some d
  | .other => True

/-- Before anything has been decided. -/
structure Undecided (known : σ → ClientOrderId → Option OrderResult) (st : TradingState σ) :
    Prop where
  rows : ∀ oid, st.session.working.getByClientOrderId oid = none
  orders : ∀ oid, known st.exchange oid = none
  decisions : st.session.working.decisions = []

/-- Whatever is stored under an identifier was put there by a decision of the history. -/
structure Accounted (known : σ → ClientOrderId → Option OrderResult) (own : ClientOrderId → Prop)
    (history : List (TradingState σ × PlanEvent)) (st : TradingState σ) : Prop where
  rows : ∀ oid row, ¬own oid → st.session.working.getByClientOrderId oid = some row →
    ∃ t ∈ history, ∃ plan estimate, t.2 = .execute plan estimate ∧
      plan.decision.decisionId = oid ∧ row.terms = plan.terms
  orders : ∀ oid order, ¬own oid → known st.exchange oid = some order →
    ∃ t ∈ history, ∃ plan estimate, t.2 = .execute plan estimate ∧
      plan.decision.decisionId = oid ∧ Carries oid plan.terms order
  decisions : ∀ d ∈ st.session.working.decisions, ∃ t ∈ history, t.2 = .audit d

variable {A : ExchangeAdapter σ} {known : σ → ClientOrderId → Option OrderResult}
  {own : ClientOrderId → Prop} {history : List (TradingState σ × PlanEvent)}

theorem Undecided.accounted (h : Undecided known st) : Accounted known own [] st := by
  refine ⟨?_, ?_, ?_⟩
  · intro oid row _ hfound
    rw [h.rows oid] at hfound
    cases hfound
  · intro oid order _ hfound
    rw [h.orders oid] at hfound
    cases hfound
  · intro d hm
    rw [h.decisions] at hm
    cases hm

/-- A longer history accounts for no less. -/
theorem Accounted.snoc (h : Accounted known own history st) (t : TradingState σ × PlanEvent) :
    Accounted known own (history ++ [t]) st := by
  refine ⟨?_, ?_, ?_⟩
  · intro oid row hown hfound
    obtain ⟨t', hm, hrest⟩ := h.rows oid row hown hfound
    exact ⟨t', List.mem_append_left _ hm, hrest⟩
  · intro oid order hown hfound
    obtain ⟨t', hm, hrest⟩ := h.orders oid order hown hfound
    exact ⟨t', List.mem_append_left _ hm, hrest⟩
  · intro d hd
    obtain ⟨t', hm, hrest⟩ := h.decisions d hd
    exact ⟨t', List.mem_append_left _ hm, hrest⟩

theorem Accounted.other (h : Accounted known own history st) (ho : AddsOnlyOwn known own st st') :
    Accounted known own history st' := by
  refine ⟨?_, ?_, ?_⟩
  · intro oid row hown hfound
    obtain ⟨old, hold, hsame⟩ := ho.rows oid row hown hfound
    rw [← hsame]
    exact h.rows oid old hown hold
  · intro oid order hown hfound
    obtain ⟨old, hold, hcarries⟩ := ho.orders oid order hown hfound
    obtain ⟨t, hm, plan, estimate, ht, hid, hplan⟩ := h.orders oid old hown hold
    exact ⟨t, hm, plan, estimate, ht, hid, hcarries plan.terms hplan⟩
  · intro d hd
    exact h.decisions d (ho.decisions d hd)

/-- An audit under an identifier of its own is stored, or was stored before. -/
theorem Accounted.audit (h : Accounted known own history st)
    (hid : OwnIdentifier own history (st, .audit d)) :
    Distinguished A s (st, .audit d) ∧ Accounted known own (history ++ [(st, .audit d)])
      { st with session := st.session.auditModelDecision d } := by
  have hsnoc := h.snoc (st, .audit d)
  unfold Distinguished
  dsimp only
  unfold Session.auditModelDecision
  rcases hfind : st.session.working.decisions.find? (·.decisionId = d.decisionId) with _ | old
  · have hnone : ¬st.session.working.decisions.any (·.decisionId = d.decisionId) := by
      intro hany
      obtain ⟨old, hm, heq⟩ := List.any_eq_true.mp hany
      exact List.find?_eq_none.mp hfind old hm heq
    rw [if_neg hnone]
    refine ⟨?_, hsnoc.rows, hsnoc.orders, ?_⟩
    · rw [List.find?_append, hfind, Option.none_or]
      exact List.find?_cons_of_pos (by simp)
    · intro d' hm
      rcases List.mem_append.mp hm with hm | hm
      · exact hsnoc.decisions d' hm
      · rw [List.mem_singleton.mp hm]
        exact ⟨(st, .audit d), List.mem_append_right _ (List.mem_singleton_self _), rfl⟩
  · have hm : old ∈ st.session.working.decisions := List.mem_of_find?_eq_some hfind
    have heq : old.decisionId = d.decisionId := by simpa using List.find?_some hfind
    obtain ⟨t, ht, haudit⟩ := h.decisions old hm
    have hsame : old = d := hid t ht old haudit heq
    subst hsame
    rw [if_pos (List.any_eq_true.mpr ⟨old, hm, by simp⟩)]
    exact ⟨hfind, hsnoc⟩

/-- A plan under an identifier of its own returns its order, and stores no other. -/
theorem Accounted.execute (hA : RemembersOrders A known) (h : Accounted known own history st)
    (hid : OwnIdentifier own history (st, .execute plan estimate))
    (he : executeApprovedPlan A s plan.decision plan.result estimate st = (o, st')) :
    Distinguished A s (st, .execute plan estimate) ∧
      Accounted known own (history ++ [(st, .execute plan estimate)]) st' := by
  obtain ⟨hown, hearlier⟩ := hid
  have hrow : ∀ row, st.session.working.getByClientOrderId plan.decision.decisionId = some row →
      row.terms = plan.terms := by
    intro row hfound
    obtain ⟨t, hm, plan', estimate', ht, hsame, hterms⟩ := h.rows _ row hown hfound
    exact hterms.trans (hearlier t hm plan' estimate' ht hsame)
  have hknown : ∀ order, known st.exchange plan.decision.decisionId = some order →
      Carries plan.decision.decisionId plan.terms order := by
    intro order hfound
    obtain ⟨t, hm, plan', estimate', ht, hsame, hcarries⟩ := h.orders _ order hown hfound
    rw [← hearlier t hm plan' estimate' ht hsame]
    exact hcarries
  obtain ⟨hreturned, hdecisions, horders, hrows⟩ :=
    executeApprovedPlan_identified hA hrow hknown he
  have hsnoc := h.snoc (st, .execute plan estimate)
  have hlast : (st, PlanEvent.execute plan estimate) ∈ history ++ [(st, .execute plan estimate)] :=
    List.mem_append_right _ (List.mem_singleton_self _)
  refine ⟨?_, ?_, ?_, ?_⟩
  · intro execution hexecution
    rw [he] at hexecution
    exact hreturned execution hexecution
  · intro oid row hforeign hfound
    rcases hrows oid row hfound with ⟨old, hold, hsame⟩ | ⟨hoid, hterms⟩
    · rw [← hsame]
      exact hsnoc.rows oid old hforeign hold
    · exact ⟨_, hlast, plan, estimate, rfl, hoid.symm, hterms⟩
  · intro oid order hforeign hfound
    rcases horders oid order hfound with hold | ⟨hoid, hcarries⟩
    · exact hsnoc.orders oid order hforeign hold
    · exact ⟨_, hlast, plan, estimate, rfl, hoid.symm, hcarries⟩
  · intro d hd
    rw [hdecisions] at hd
    exact hsnoc.decisions d hd

/-- Decisions that come under identifiers of their own are never taken for one another. -/
theorem decisions_distinguished (hA : RemembersOrders A known) (h₀ : Undecided known st)
    (hr : Run (PlanStep A s known own) st trace st') (hid : EachAfter (OwnIdentifier own) trace) :
    ∀ t ∈ trace, Distinguished A s t := by
  have hall : EachAfter (OwnIdentifier own) trace →
      Accounted known own trace st' ∧ ∀ t ∈ trace, Distinguished A s t := by
    refine hr.invariant_trace
      (I := fun trace st => EachAfter (OwnIdentifier own) trace →
        Accounted known own trace st ∧ ∀ t ∈ trace, Distinguished A s t) ?_ ?_
    · exact fun _ => ⟨h₀.accounted, List.forall_mem_nil _⟩
    · intro history st t st' ih hs hid
      obtain ⟨hbefore, ht⟩ := hid.of_snoc
      obtain ⟨haccounted, hdone⟩ := ih hbefore
      have hstep : Distinguished A s t ∧ Accounted known own (history ++ [t]) st' := by
        cases hs with
        | execute plan estimate he => exact haccounted.execute hA ht he
        | audit d => exact haccounted.audit ht
        | other ho => exact ⟨trivial, (haccounted.other ho).snoc _⟩
      refine ⟨hstep.2, ?_⟩
      intro t' hm
      rcases List.mem_append.mp hm with hm | hm
      · exact hdone t' hm
      · rw [List.mem_singleton.mp hm]
        exact hstep.1
  exact (hall hid).2

/-- The sample decision with half of the margin, under the same identifier. -/
def halvedDecision : ModelDecision :=
  { sampleDecision with marginUsdt := 5, valid := by decide +kernel }

/-- The plan of a decision, in the context of the samples. -/
def planOf (d : ModelDecision) : Option ApprovedPlan :=
  match validate d sampleContext defaultConfig with
  | .error _ => none
  | .ok r => match h : r.adjustedParameters with
    | none => none
    | some p => some ⟨d, r, p, h⟩

def afterPlan (plan : ApprovedPlan) (st : TradingState PaperAdapter) : TradingState PaperAdapter :=
  (executeApprovedPlan PaperAdapter.exchange paperSettings plan.decision plan.result none st).2

/-- The terms of the order that a plan returns. -/
def returnedTerms (plan : ApprovedPlan) (st : TradingState PaperAdapter) : Option OrderTerms :=
  ((executeApprovedPlan PaperAdapter.exchange paperSettings plan.decision plan.result none st
    ).1.toOption).map (·.orderResult.terms)

theorem idle_undecided : Undecided (fun a : PaperAdapter => a.orders.get) (idleWithAtr 2) :=
  ⟨fun _ => rfl, fun _ => rfl, rfl⟩

theorem planOf_sample : ∃ plan, planOf sampleDecision = some plan :=
  Option.isSome_iff_exists.mp (by decide +kernel)

theorem sample_distinguished : ∃ plan, planOf sampleDecision = some plan ∧
    ∀ t ∈ [(idleWithAtr 2, PlanEvent.execute plan none), (afterPlan plan (idleWithAtr 2), .other)],
      Distinguished PaperAdapter.exchange paperSettings t := by
  obtain ⟨plan, hplan⟩ := planOf_sample
  refine ⟨plan, hplan, ?_⟩
  have hkeeps : AddsOnlyOwn (fun a : PaperAdapter => a.orders.get) (fun _ => False)
      (afterPlan plan (idleWithAtr 2)) (afterPlan plan (idleWithAtr 2)) :=
    ⟨fun _ row _ h => ⟨row, h, rfl⟩, fun _ order _ h => ⟨order, h, fun _ hc => hc⟩,
      fun _ hd => hd⟩
  have hr : Run (PlanStep PaperAdapter.exchange paperSettings (fun a => a.orders.get)
      (fun _ => False)) (idleWithAtr 2)
      [(idleWithAtr 2, .execute plan none), (afterPlan plan (idleWithAtr 2), .other)]
      (afterPlan plan (idleWithAtr 2)) :=
    .snoc (.snoc (.nil _) (.execute plan none rfl)) (.other hkeeps)
  apply decisions_distinguished PaperAdapter.exchange_remembersOrders idle_undecided hr
  refine EachAfter.snoc (EachAfter.snoc .nil ⟨id, ?_⟩) trivial
  intro t hm
  cases hm

/-- The second of two plans under one identifier is answered with the order of the first, which
is twice its size. -/
theorem repeated_identifier_conflates :
    ¬∀ (st st' : TradingState PaperAdapter) (trace : List (TradingState PaperAdapter × PlanEvent)),
      Undecided (fun a => a.orders.get) st →
      Run (PlanStep PaperAdapter.exchange paperSettings (fun a => a.orders.get) (fun _ => False))
        st trace st' →
      ∀ t ∈ trace, Distinguished PaperAdapter.exchange paperSettings t := by
  intro h
  have hterms : ((planOf sampleDecision).bind fun plan => (planOf halvedDecision).map fun halved =>
      (returnedTerms halved (afterPlan plan (idleWithAtr 2)) = some plan.terms ∧
        plan.terms ≠ halved.terms : Bool)) = some true := by
    decide +kernel
  obtain ⟨plan, hplan, hterms⟩ := Option.bind_eq_some_iff.mp hterms
  obtain ⟨halved, hhalved, hterms⟩ := Option.map_eq_some_iff.mp hterms
  obtain ⟨hreturned, hne⟩ := of_decide_eq_true hterms
  obtain ⟨execution, hexecution, hsame⟩ := Option.map_eq_some_iff.mp hreturned
  have hr : Run (PlanStep PaperAdapter.exchange paperSettings (fun a => a.orders.get)
      (fun _ => False)) (idleWithAtr 2)
      [(idleWithAtr 2, .execute plan none),
        (afterPlan plan (idleWithAtr 2), .execute halved none)]
      (afterPlan halved (afterPlan plan (idleWithAtr 2))) :=
    .snoc (.snoc (.nil _) (.execute plan none rfl)) (.execute halved none rfl)
  have hdone := h _ _ _ idle_undecided hr
    (afterPlan plan (idleWithAtr 2), .execute halved none) (by simp)
  rcases hx : (executeApprovedPlan PaperAdapter.exchange paperSettings halved.decision
      halved.result none (afterPlan plan (idleWithAtr 2))).1 with e | x
  · rw [hx] at hexecution
    cases hexecution
  · rw [hx] at hexecution
    cases hexecution
    exact hne (hsame.symm.trans (hdone execution hx))

end FuturesBot
