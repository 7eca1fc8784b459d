import FuturesBot.Exchange.BusinessErrors
import FuturesBot.Exchange.Requests
import FuturesBot.Lib.Loops

namespace FuturesBot
open Lib

variable {ω : Type}

def OrderRequest.post (request : OrderRequest) : BingXRequest :=
  .placeOrder (BingXAdapter.orderParams request)

def OrderRequest.query (request : OrderRequest) : BingXRequest :=
  .order (toBingxSymbol request.symbol) request.clientOrderId

/-- A request for an order under an id. -/
def BingXRequest.Places (id : ClientOrderId) : BingXRequest → Prop
  | .placeOrder params => params.clientOrderID = id
  | _ => False

/-- An exchange that has one order at most under the id of a request. `accepted` says whether it
has it, and `shows` what it answers about it. -/
structure Deduplicates (A : BingXAdapter ω) (request : OrderRequest) (accepted : ω → Prop)
    (shows : RawOrder → ω → Prop) : Prop where
  clocks : KeptByClocks A.toRetryWorld accepted
  clocks_not : KeptByClocks A.toRetryWorld fun w => ¬accepted w
  elsewhere : ∀ sent w, ¬sent.Places request.clientOrderId →
    (accepted (A.http sent w).2 ↔ accepted w)
  rejects : ∀ w, accepted w → accepted (A.http request.post w).2 ∧
    ∃ e, (A.http request.post w).1.read = .error e
  placed : ∀ w data, (A.http request.post w).1.read = .ok data →
    ∃ raw, BingXAdapter.placedOrder data = .ok raw ∧ shows raw (A.http request.post w).2
  found : ∀ w data raw, (A.http request.query w).1.read = .ok data → extractOrder data = some raw →
    shows raw (A.http request.query w).2
  absent : ∀ w data, (A.http request.query w).1.read = .ok data → extractOrder data = none →
    ¬accepted (A.http request.query w).2
  parses : ∀ raw w, shows raw w → ∃ result, parseOrder (A.utcNow w) raw request.symbol = .ok result

namespace BingXAdapter

variable {A : BingXAdapter ω} {request : OrderRequest} {s s₁ s₂ s₃ : BingXState ω}

open Eff (Keeps)

/-- Until the order is sent. -/
def beforeSending (A : BingXAdapter ω) (request : OrderRequest) :
    BingXCall ω (Option OrderResult) := do
  A.ensureOneWayMode
  A.ensureIsolatedMargin request.symbol
  A.queryOrder request.symbol request.clientOrderId

/-- The order is sent if it has not been found. -/
def sendUnlessFound (A : BingXAdapter ω) (request : OrderRequest) :
    Option OrderResult → BingXCall ω OrderResult
  | some existing => pure existing
  | none => do
    match ← A.sendOrder request with
    | .inr existing => pure existing
    | .inl data => do
      let raw ← Eff.ofExcept (placedOrder data)
      let result ← A.readOrder raw request.symbol
      cacheOrder result.clientOrderId request.symbol
      return result

theorem placeOrder_eq (A : BingXAdapter ω) (request : OrderRequest) :
    A.placeOrder request = A.beforeSending request >>= A.sendUnlessFound request := by
  simp only [placeOrder, beforeSending, bind_assoc]
  rfl

theorem keeps_beforeSending {P : RetryState ω BingXError → Prop}
    (h : ∀ sent, ¬sent.Places request.clientOrderId →
      Keeps (fun s => P s.retry) (A.signedRequest sent)) :
    Keeps (fun s => P s.retry) (A.beforeSending request) := by
  have honeWay := keeps_ensureOneWayMode (h .oneWayMode id)
  have hisolated := keeps_ensureIsolatedMargin
    (h (.marginType (toBingxSymbol request.symbol) .isolated) id)
  have hquery := keeps_queryOrder (h request.query id)
  exact .bind honeWay fun _ => .bind hisolated fun _ => hquery

/-- What the exchange keeps and the clocks keep, a request keeps. -/
theorem keeps_world {Q : ω → Prop} (hQ : KeptByClocks A.toRetryWorld Q)
    (hsent : ∀ w, Q w → Q (A.http sent w).2) :
    Keeps (fun s => Q s.retry.world) (A.signedRequest sent) := by
  intro s hs
  exact hQ.retrySync (c := A.requestCall sent) hsent (by simp [requestCall]) hs

/-- An order that has been read is returned, and remembered. -/
theorem readOrder_ok (h : parseOrder (A.utcNow s.retry.world) raw symbol = .ok result) :
    A.readOrder raw symbol s = (.ok result, s) := by
  rw [readOrder, h]
  rfl

theorem queryOrder_error (h : A.signedRequest request.query s = (.error e, s₁)) :
    A.queryOrder request.symbol request.clientOrderId s =
      (if e.isApiError then .ok none else .error e, s₁) := by
  have hanswer : (do return some (← A.signedRequest request.query) :
      BingXCall ω (Option ResponseData)) s = (.error e, s₁) := Eff.bind_error h
  unfold queryOrder
  by_cases hapi : e.isApiError
  · rw [if_pos hapi]
    refine Eff.bind_ok (a := none) ((Eff.tryCatch_error hanswer).trans ?_)
    rw [if_pos hapi]
    rfl
  · rw [if_neg hapi]
    refine Eff.bind_error ((Eff.tryCatch_error hanswer).trans ?_)
    rw [if_neg hapi]
    rfl

theorem queryOrder_ok (h : A.signedRequest request.query s = (.ok data, s₁)) :
    A.queryOrder request.symbol request.clientOrderId s =
      A.takeOrder request.clientOrderId request.symbol (extractOrder data) s₁ := by
  have hanswer : (do return some (← A.signedRequest request.query) :
      BingXCall ω (Option ResponseData)) s = (.ok (some data), s₁) := Eff.bind_ok h
  exact Eff.bind_ok (Eff.tryCatch_ok hanswer)

theorem takeOrder_ok (h : parseOrder (A.utcNow s.retry.world) raw symbol = .ok result)
    (clientOrderId : ClientOrderId) : ∃ s₁, s₁.retry = s.retry ∧
      A.takeOrder clientOrderId symbol (some raw) s = (.ok (some result), s₁) := by
  refine ⟨(cacheOrder clientOrderId symbol s).2, rfl, ?_⟩
  refine (Eff.bind_ok rfl).trans (Eff.bind_ok (readOrder_ok h))

/-- The answer to the order that was sent is read and returned. -/
theorem sendUnlessFound_placed (hpost : A.signedRequest request.post s = (.ok data, s₁))
    (hraw : placedOrder data = .ok raw)
    (hparse : parseOrder (A.utcNow s₁.retry.world) raw request.symbol = .ok result) :
    ∃ s₂, s₂.retry = s₁.retry ∧ A.sendUnlessFound request none s = (.ok result, s₂) := by
  have hsent : A.sendOrder request s = (.ok (.inl data), s₁) := Eff.tryCatch_ok (Eff.bind_ok hpost)
  have hread : Eff.ofExcept (placedOrder data) s₁ = (.ok raw, s₁) := by
    rw [hraw]
    rfl
  refine ⟨(cacheOrder result.clientOrderId request.symbol s₁).2, rfl, ?_⟩
  exact (Eff.bind_ok hsent).trans ((Eff.bind_ok hread).trans (Eff.bind_ok (readOrder_ok hparse)))

/-- Only after an API error is the order asked for again. -/
theorem sendUnlessFound_raised (hpost : A.signedRequest request.post s = (.error e, s₁))
    (hapi : ¬e.isApiError) : A.sendUnlessFound request none s = (.error e, s₁) := by
  have hcaught : A.sendOrder request s = (.error e, s₁) := by
    refine (Eff.tryCatch_error (Eff.bind_error hpost)).trans ?_
    rw [if_neg hapi]
    rfl
  exact Eff.bind_error hcaught

theorem sendOrder_asks (hpost : A.signedRequest request.post s = (.error e, s₁))
    (hapi : e.isApiError) : A.sendOrder request s =
      (A.queryOrder request.symbol request.clientOrderId >>= fun
        | some existing => do
          cacheOrder existing.clientOrderId request.symbol
          return .inr existing
        | none => throw e) s₁ :=
  (Eff.tryCatch_error (Eff.bind_error hpost)).trans (congrFun (if_pos hapi) s₁)

/-- What the second query ends in, the call does, with the API error if nothing was found. -/
theorem sendUnlessFound_asks (hpost : A.signedRequest request.post s = (.error e, s₁))
    (hapi : e.isApiError)
    (hquery : A.queryOrder request.symbol request.clientOrderId s₁ = (found, s₂)) :
    ∃ s₃, s₃.retry = s₂.retry ∧ A.sendUnlessFound request none s =
      (found.bind fun existing => existing.elim (.error e) .ok, s₃) := by
  have hasks := sendOrder_asks hpost hapi
  rcases found with e' | _ | result
  · exact ⟨s₂, rfl, Eff.bind_error (hasks.trans (Eff.bind_error hquery))⟩
  · exact ⟨s₂, rfl, Eff.bind_error (hasks.trans (Eff.bind_ok hquery))⟩
  · refine ⟨(cacheOrder result.clientOrderId request.symbol s₂).2, rfl, ?_⟩
    exact Eff.bind_ok (hasks.trans (Eff.bind_ok hquery))

/-- What a call of `place_order` has to end in if the exchange has accepted the order by then:
the order, or an error of the transport. -/
def Reported (A : BingXAdapter ω) (request : OrderRequest) (accepted : ω → Prop)
    (shows : RawOrder → ω → Prop) (ends : Except BingXError OrderResult × BingXState ω) : Prop :=
  accepted ends.2.retry.world →
    (∃ raw result, shows raw ends.2.retry.world ∧ ends.1 = .ok result ∧
      parseOrder (A.utcNow ends.2.retry.world) raw request.symbol = .ok result) ∨
    ∃ e, ends.1 = .error e ∧ isRetryableBingxError e

/-- An order that is accepted during a call of `place_order` is not reported as refused. -/
def ReportsAccepted (A : BingXAdapter ω) (request : OrderRequest) (accepted : ω → Prop)
    (shows : RawOrder → ω → Prop) (s : BingXState ω) : Prop :=
  ¬accepted s.retry.world → Reported A request accepted shows (A.placeOrder request s)

/-- Where the order has been accepted, its query ends in no error but one of the transport. -/
def QueryHeard (A : BingXAdapter ω) (request : OrderRequest) (accepted : ω → Prop)
    (s : BingXState ω) : Prop :=
  accepted s.retry.world →
    ∀ e s', A.signedRequest request.query s = (.error e, s') → isRetryableBingxError e

/-- The order does not end in a status error of the client's once it has been accepted, and if it
ends in an API error, the second query is heard. -/
def SecondQueryHeard (A : BingXAdapter ω) (request : OrderRequest) (accepted : ω → Prop)
    (s : BingXState ω) : Prop :=
  ¬accepted s.retry.world → ∀ s₁ e s₂, A.beforeSending request s = (.ok none, s₁) →
    A.signedRequest request.post s₁ = (.error e, s₂) →
    if e.isApiError then QueryHeard A request accepted s₂
    else accepted s₂.retry.world → isRetryableBingxError e

section
variable {accepted : ω → Prop} {shows : RawOrder → ω → Prop}

theorem accepted_elsewhere (hA : Deduplicates A request accepted shows)
    (h : A.signedRequest sent s = (r, s₁)) (hsent : ¬sent.Places request.clientOrderId) :
    accepted s₁.retry.world ↔ accepted s.retry.world := by
  have hkeeps := keeps_world hA.clocks (fun w => (hA.elsewhere sent w hsent).mpr) s
  have hkeeps_not := keeps_world hA.clocks_not (fun w => mt (hA.elsewhere sent w hsent).mp) s
  rw [h] at hkeeps hkeeps_not
  exact ⟨fun haccepted => not_not.mp fun hnot => hkeeps_not hnot haccepted, hkeeps⟩

theorem not_retryable_of_isApiError {e : BingXError} (h : e.isApiError) :
    ¬isRetryableBingxError e := by
  cases e with
  | bingXApiError cause => exact Bool.false_ne_true
  | _ => cases h

/-- A call that raises reports an accepted order just with an error of the transport. -/
theorem reported_raised_iff (s : BingXState ω) (e : BingXError) :
    Reported A request accepted shows (.error e, s) ↔
      (accepted s.retry.world → isRetryableBingxError e) := by
  refine imp_congr_right fun _ => ⟨?_, fun h => .inr ⟨e, rfl, h⟩⟩
  rintro (⟨_, _, _, hok, _⟩ | ⟨e', he, h⟩)
  · cases hok
  · cases he
    exact h

/-- After an API error everything depends on the second query. -/
theorem reported_asked_iff (hA : Deduplicates A request accepted shows)
    (hpost : A.signedRequest request.post s = (.error e, s₁)) (hapi : e.isApiError) :
    Reported A request accepted shows (A.sendUnlessFound request none s) ↔
      QueryHeard A request accepted s₁ := by
  rcases hquery : A.signedRequest request.query s₁ with ⟨e' | data, s₂⟩
  · obtain ⟨s₃, hretry, hends⟩ := sendUnlessFound_asks hpost hapi (queryOrder_error hquery)
    have hkept := accepted_elsewhere hA hquery id
    have hheard : QueryHeard A request accepted s₁ ↔
        (accepted s₁.retry.world → isRetryableBingxError e') := by
      refine imp_congr_right fun _ => ⟨fun h => h e' s₂ hquery, fun h e'' s' hquery' => ?_⟩
      cases hquery.symm.trans hquery'
      exact h
    rw [hends, hheard]
    by_cases hagain : e'.isApiError
    · rw [if_pos hagain]
      refine (reported_raised_iff s₃ e).trans ?_
      rw [hretry, hkept]
      exact imp_congr_right fun _ => iff_of_false (not_retryable_of_isApiError hapi)
        (not_retryable_of_isApiError hagain)
    · rw [if_neg hagain]
      refine (reported_raised_iff s₃ e').trans ?_
      rw [hretry, hkept]
  · have hheard : QueryHeard A request accepted s₁ := by
      intro _ e' s' hquery'
      cases hquery.symm.trans hquery'
    refine ⟨fun _ => hheard, fun _ haccepted => ?_⟩
    obtain ⟨w, hread, hworld⟩ := signedRequest_ok hquery
    have hfound := queryOrder_ok hquery
    rcases hextract : extractOrder data with _ | raw
    · rw [hextract] at hfound
      obtain ⟨s₃, hretry, hends⟩ := sendUnlessFound_asks hpost hapi hfound
      rw [hends, hretry] at haccepted
      have habsent := hA.absent w data hread hextract
      rw [hworld] at habsent
      exact absurd haccepted habsent
    · have hshows := hA.found w data raw hread hextract
      rw [hworld] at hshows
      obtain ⟨result, hparse⟩ := hA.parses raw _ hshows
      obtain ⟨s₃, hretry, htaken⟩ := takeOrder_ok hparse request.clientOrderId
      rw [hextract, htaken] at hfound
      obtain ⟨s₄, hretry', hends⟩ := sendUnlessFound_asks hpost hapi hfound
      rw [hends]
      exact .inl ⟨raw, result, by rwa [hretry', hretry], rfl, by rwa [hretry', hretry]⟩

theorem reported_sent_iff (hA : Deduplicates A request accepted shows) (s : BingXState ω) :
    Reported A request accepted shows (A.sendUnlessFound request none s) ↔
      ∀ e s₁, A.signedRequest request.post s = (.error e, s₁) →
        if e.isApiError then QueryHeard A request accepted s₁
        else accepted s₁.retry.world → isRetryableBingxError e := by
  rcases hpost : A.signedRequest request.post s with ⟨e | data, s₁⟩
  · have hone : (∀ e' s₁', ((.error e, s₁) : Except BingXError ResponseData × BingXState ω) =
        (.error e', s₁') → if e'.isApiError then QueryHeard A request accepted s₁'
          else accepted s₁'.retry.world → isRetryableBingxError e') ↔
        if e.isApiError then QueryHeard A request accepted s₁
          else accepted s₁.retry.world → isRetryableBingxError e := by
      refine ⟨fun h => h e s₁ rfl, fun h e' s₁' hsame => ?_⟩
      cases hsame
      exact h
    rw [hone]
    by_cases hapi : e.isApiError
    · rw [if_pos hapi, reported_asked_iff hA hpost hapi]
    · rw [if_neg hapi, sendUnlessFound_raised hpost hapi, reported_raised_iff]
  · refine ⟨fun _ e' s₁' hsame => (by cases hsame), fun _ _ => ?_⟩
    obtain ⟨w, hread, hworld⟩ := signedRequest_ok hpost
    obtain ⟨raw, hraw, hshows⟩ := hA.placed w data hread
    rw [hworld] at hshows
    obtain ⟨result, hparse⟩ := hA.parses raw _ hshows
    obtain ⟨s₂, hretry, hends⟩ := sendUnlessFound_placed hpost hraw hparse
    rw [hends]
    exact .inl ⟨raw, result, by rwa [hretry], rfl, by rwa [hretry]⟩

/-- Nothing is accepted before the order is sent. -/
theorem reportsAccepted_iff (hA : Deduplicates A request accepted shows) (s : BingXState ω) :
    ReportsAccepted A request accepted shows s ↔ SecondQueryHeard A request accepted s := by
  have hnone : Keeps (fun s => ¬accepted s.retry.world) (A.beforeSending request) :=
    keeps_beforeSending (P := fun r => ¬accepted r.world) fun sent hsent =>
      keeps_world hA.clocks_not fun w => mt (hA.elsewhere sent w hsent).mp
  unfold ReportsAccepted SecondQueryHeard
  rw [placeOrder_eq]
  refine imp_congr_right fun hstart => ?_
  have hnot := hnone s hstart
  rcases hbefore : A.beforeSending request s with ⟨e | _ | existing, s₁⟩
  · rw [hbefore] at hnot
    rw [Eff.bind_error hbefore]
    refine ⟨fun _ s₁' e' s₂ hsame => (by cases hsame), fun _ haccepted => absurd haccepted hnot⟩
  · rw [Eff.bind_ok hbefore, reported_sent_iff hA]
    constructor
    · intro hheard s₁' e s₂ hsame
      cases hsame
      exact hheard e s₂
    · intro hheard e s₂
      exact hheard s₁ e s₂ rfl
  · rw [hbefore] at hnot
    rw [Eff.bind_ok hbefore]
    refine ⟨fun _ s₁' e' s₂ hsame => (by cases hsame), fun _ haccepted => absurd haccepted hnot⟩

end

end BingXAdapter

/-- In every state of the adapter, an accepted order is never reported as refused exactly if
neither the order nor the second query for it ends in an error that hides it. -/
theorem BingXAdapter.placeOrder_reports_iff (A : BingXAdapter ω) (s : BingXState ω)
    {request : OrderRequest} {accepted : ω → Prop} {shows : RawOrder → ω → Prop}
    (hA : Deduplicates A request accepted shows) :
    ReportsAccepted A request accepted shows s ↔ SecondQueryHeard A request accepted s :=
  reportsAccepted_iff hA s

/-- An order as it was sent and filled. -/
def filledClose : RawOrder := { side := some "SELL", status := some "FILLED" }

/-- An exchange that accepts the first order that comes to it, with an answer that is lost. It
refuses the next one, is too busy for one query after that, and then shows the order. The world
counts how far it has come. -/
def lossyExchange : BingXAdapter ℕ :=
  { unknownOrders with
    http := fun request n =>
      match request, n with
      | .placeOrder params, n =>
        if params.clientOrderID = protectiveClose.clientOrderId then
          if n = 0 then (.requestError, 1)
          else (.response 200 (.ok ⟨some 101400, none⟩), n + 1)
        else (.response 200 (.ok ⟨some 101204, none⟩), n)
      | .order _ _, 0 => (.response 200 (.ok ⟨some 109421, none⟩), 0)
      | .order _ _, 2 => (.response 200 (.ok ⟨some 100410, none⟩), 3)
      | .order _ _, n =>
        (.response 200 (.ok ⟨some 0, some (.order (some (some filledClose)) none)⟩), n)
      | _, n => (.response 200 (.ok ⟨some 0, some .other⟩), n) }

/-- What the lossy exchange answers about the order that it has accepted. -/
def showsFilled (raw : RawOrder) (n : ℕ) : Prop := raw = filledClose ∧ 0 < n

theorem lossyExchange_post (n : ℕ) :
    0 < (lossyExchange.http protectiveClose.post n).2 ∧
    ∃ e, (lossyExchange.http protectiveClose.post n).1.read = .error e := by
  rcases n with _ | n
  · exact ⟨Nat.zero_lt_one, .requestError, rfl⟩
  · exact ⟨Nat.succ_pos _, .bingXApiError (.answered (some 101400)), rfl⟩

/-- A query hears of the order, or of an error. -/
theorem lossyExchange_query (n : ℕ) :
    (lossyExchange.http protectiveClose.query n).1.read =
        .ok (.order (some (some filledClose)) none) ∧
      0 < (lossyExchange.http protectiveClose.query n).2 ∨
    ∃ e, (lossyExchange.http protectiveClose.query n).1.read = .error e := by
  rcases n with _ | _ | _ | n
  · exact .inr ⟨.bingXApiError (.answered (some 109421)), rfl⟩
  · exact .inl ⟨rfl, Nat.zero_lt_one⟩
  · exact .inr ⟨.bingXApiError (.answered (some 100410)), rfl⟩
  · exact .inl ⟨rfl, Nat.succ_pos _⟩

theorem lossyExchange_deduplicates :
    Deduplicates lossyExchange protectiveClose (0 < ·) showsFilled where
  clocks := ⟨id, id, id⟩
  clocks_not := ⟨id, id, id⟩
  elsewhere := by
    intro sent n hsent
    cases sent with
    | placeOrder params => simp [lossyExchange, show params.clientOrderID ≠ _ from hsent]
    | order symbol id => rcases n with _ | _ | _ | n <;> simp [lossyExchange]
    | _ => simp [lossyExchange]
  rejects := by
    intro n _
    exact lossyExchange_post n
  placed := by
    intro n data hdata
    obtain ⟨_, e, he⟩ := lossyExchange_post n
    cases hdata.symm.trans he
  found := by
    intro n data raw hdata hextract
    rcases lossyExchange_query n with ⟨hok, hpos⟩ | ⟨e, he⟩
    · cases hdata.symm.trans hok
      cases hextract
      exact ⟨rfl, hpos⟩
    · cases hdata.symm.trans he
  absent := by
    intro n data hdata hextract
    rcases lossyExchange_query n with ⟨hok, _⟩ | ⟨e, he⟩
    · cases hdata.symm.trans hok
      cases hextract
    · cases hdata.symm.trans he
  parses := by
    rintro raw n ⟨rfl, _⟩
    exact ok_of_isSome (r := parseOrder 0 filledClose "BTCUSDT") (by decide +kernel)

theorem lossyExchange_reports_iff :
    BingXAdapter.ReportsAccepted lossyExchange protectiveClose (0 < ·) showsFilled
        (BingXAdapter.start {} 0) ↔
      BingXAdapter.SecondQueryHeard lossyExchange protectiveClose (0 < ·)
        (BingXAdapter.start {} 0) :=
  lossyExchange.placeOrder_reports_iff _ lossyExchange_deduplicates

/-- The order has been accepted and is reported as refused. -/
theorem accepted_order_refused :
    Deduplicates lossyExchange protectiveClose (0 < ·) showsFilled ∧
    ¬BingXAdapter.ReportsAccepted lossyExchange protectiveClose (0 < ·) showsFilled
      (BingXAdapter.start {} 0) := by
  refine ⟨lossyExchange_deduplicates, fun hreports => ?_⟩
  have haccepted :
      0 < (lossyExchange.placeOrder protectiveClose (BingXAdapter.start {} 0)).2.retry.world := by
    decide +kernel
  have hrefused : (lossyExchange.placeOrder protectiveClose (BingXAdapter.start {} 0)).1 =
      .error (.bingXApiError (.answered (some 101400))) :=
    Eff.error_of_raised (by decide +kernel)
  rcases hreports (by decide) haccepted with ⟨_, _, _, hok, _⟩ | ⟨e, herror, htransport⟩
  · cases hrefused.symm.trans hok
  · cases hrefused.symm.trans herror
    cases htransport

end FuturesBot
