import FuturesBot.Core.BreakerRuns
import FuturesBot.Exchange.BingX

namespace FuturesBot
open Lib

variable {ω : Type}

namespace BingXAdapter

variable {A : BingXAdapter ω} {P : RetryState ω BingXError → Prop}

open Eff (Keeps)

/-- A request does to the breaker what its attempts do. -/
theorem keeps_signedRequest (h : KeptByAttempts A.toRetryWorld P) (request : BingXRequest) :
    Keeps (fun s => P s.retry) (A.signedRequest request) :=
  fun s hs => h.retrySync (A.requestCall request) s.retry hs

theorem keeps_cacheOrder (clientOrderId : ClientOrderId) (symbol : Symbol) :
    Keeps (fun s : BingXState ω => P s.retry) (cacheOrder clientOrderId symbol) :=
  fun _ hs => hs

theorem keeps_readOrder (raw : RawOrder) (symbol : Symbol) :
    Keeps (fun s => P s.retry) (A.readOrder raw symbol) :=
  fun _ hs => hs

theorem keeps_takeOrder (id : ClientOrderId) (symbol : Symbol) (found : Option RawOrder) :
    Keeps (fun s => P s.retry) (A.takeOrder id symbol found) := by
  cases found with
  | none => exact .pure _
  | some raw =>
    exact .bind (keeps_cacheOrder _ _) fun _ => .bind (keeps_readOrder _ _) fun _ => .pure _

theorem keeps_probe (h : KeptByAttempts A.toRetryWorld P) (id : ClientOrderId) (symbol : Symbol) :
    Keeps (fun s => P s.retry) (A.probe id symbol) :=
  .bind (keeps_signedRequest h _) fun _ => keeps_takeOrder _ _ _

theorem keeps_probeAll (h : KeptByAttempts A.toRetryWorld P) (id : ClientOrderId)
    (symbols : List Symbol) : Keeps (fun s => P s.retry) (A.probeAll id symbols) := by
  induction symbols with
  | nil => exact .pure _
  | cons symbol symbols ih =>
    refine .bind (.tryCatch (keeps_probe h id symbol) fun e => .ite (.pure _) (.throw _)) ?_
    intro found
    split
    · exact .pure _
    · exact ih

theorem keeps_getOrderStatus (h : KeptByAttempts A.toRetryWorld P) (id : ClientOrderId) :
    Keeps (fun s => P s.retry) (A.getOrderStatus id) :=
  fun s hs => keeps_probeAll h id _ s hs

theorem keeps_queryOrder {id : ClientOrderId}
    (h : Keeps (fun s => P s.retry) (A.signedRequest (.order (toBingxSymbol symbol) id))) :
    Keeps (fun s => P s.retry) (A.queryOrder symbol id) :=
  .bind (.tryCatch (.bind h fun _ => .pure _) fun _ => .ite (.pure _) (.throw _))
    fun _ => keeps_takeOrder _ _ _

theorem keeps_setMarginType
    (h : Keeps (fun s => P s.retry)
      (A.signedRequest (.marginType (toBingxSymbol symbol) marginType))) :
    Keeps (fun s => P s.retry) (A.setMarginType symbol marginType) :=
  .ite (.throw _) (.bind h fun _ => .pure _)

theorem keeps_ensureOneWayMode (h : Keeps (fun s => P s.retry) (A.signedRequest .oneWayMode)) :
    Keeps (fun s => P s.retry) A.ensureOneWayMode :=
  .bind .get fun _ => .ite (.pure _) (.bind h fun _ => .modify fun _ hs => hs)

theorem keeps_ensureIsolatedMargin
    (h : Keeps (fun s => P s.retry)
      (A.signedRequest (.marginType (toBingxSymbol symbol) .isolated))) :
    Keeps (fun s => P s.retry) (A.ensureIsolatedMargin symbol) :=
  .bind .get fun _ => .ite (.pure _) (.bind (keeps_setMarginType h) fun _ => .modify fun _ hs => hs)

theorem keeps_sendOrder (h : KeptByAttempts A.toRetryWorld P) (request : OrderRequest) :
    Keeps (fun s => P s.retry) (A.sendOrder request) := by
  have hquery := keeps_queryOrder (keeps_signedRequest h
    (.order (toBingxSymbol request.symbol) request.clientOrderId))
  refine .tryCatch (.bind (keeps_signedRequest h _) fun _ => .pure _) fun e => .ite ?_ (.throw _)
  refine .bind hquery fun found => ?_
  split
  · exact .bind (keeps_cacheOrder _ _) fun _ => .pure _
  · exact .throw _

theorem keeps_placeOrder (h : KeptByAttempts A.toRetryWorld P) (request : OrderRequest) :
    Keeps (fun s => P s.retry) (A.placeOrder request) := by
  have honeWay := keeps_ensureOneWayMode (keeps_signedRequest h _)
  have hisolated := keeps_ensureIsolatedMargin (keeps_signedRequest h
    (.marginType (toBingxSymbol request.symbol) .isolated))
  have hquery := keeps_queryOrder (keeps_signedRequest h
    (.order (toBingxSymbol request.symbol) request.clientOrderId))
  refine .bind honeWay fun _ => .bind hisolated fun _ => .bind hquery fun found => ?_
  split
  · exact .pure _
  · refine .bind (keeps_sendOrder h request) fun sent => ?_
    split
    · exact .pure _
    · exact .bind (.ofExcept _) fun _ => .bind (keeps_readOrder _ _) fun _ =>
        .bind (keeps_cacheOrder _ _) fun _ => .pure _

theorem keeps_cancelOrder (h : KeptByAttempts A.toRetryWorld P) (id : ClientOrderId) :
    Keeps (fun s => P s.retry) (A.cancelOrder id) := by
  refine .bind (keeps_getOrderStatus h id) fun found => ?_
  split
  · exact .pure _
  · refine .ite (.pure _) (.tryCatch (.bind (keeps_signedRequest h _) fun _ => .pure _)
      fun e => .ite (.bind (keeps_getOrderStatus h id) fun after => ?_) (.throw _))
    split
    · exact .pure _
    · exact .pure _

theorem keeps_readOpenOrders (symbol : Symbol) (raws : List RawOrder) :
    Keeps (fun s => P s.retry) (A.readOpenOrders symbol raws) := by
  induction raws with
  | nil => exact .pure _
  | cons raw raws ih =>
    have hrest : Keeps (fun s => P s.retry) (do
        let result ← A.readOrder raw symbol
        let results ← A.readOpenOrders symbol raws
        return result :: results) :=
      .bind (keeps_readOrder _ _) fun _ => .bind ih fun _ => .pure _
    unfold readOpenOrders
    split
    · exact .bind (keeps_cacheOrder _ _) fun _ => hrest
    · exact hrest

theorem keeps_getOpenOrders (h : KeptByAttempts A.toRetryWorld P) (symbol : Symbol) :
    Keeps (fun s => P s.retry) (A.getOpenOrders symbol) := by
  refine .bind (keeps_signedRequest h _) fun data => ?_
  split
  · exact keeps_readOpenOrders _ _
  · exact .pure _

theorem keeps_getFeeRates (h : KeptByAttempts A.toRetryWorld P) :
    Keeps (fun s => P s.retry) A.getFeeRates := by
  refine .bind (fun s hs => h.world _ hs) fun now => .bind .get fun s => ?_
  split
  · exact .pure _
  · exact .bind (.tryCatch (.bind (keeps_signedRequest h _) fun _ => .ofExcept _)
      fun _ => .throw _) fun _ => .bind (.modify fun _ hs => hs) fun _ => .pure _

/-- A call of any method. -/
inductive Method
  | getAccountState
  | getPosition (symbol : Symbol)
  | getOpenOrders (symbol : Symbol)
  | getOrderStatus (clientOrderId : ClientOrderId)
  | placeOrder (request : OrderRequest)
  | cancelOrder (clientOrderId : ClientOrderId)
  | setLeverage (symbol : Symbol) (leverage : ℤ)
  | setMarginType (symbol : Symbol) (marginType : MarginType)
  | getFeeRates

/-- The state that a call leaves, whether it returns or raises. -/
def after (A : BingXAdapter ω) (s : BingXState ω) : Method → BingXState ω
  | .getAccountState => (A.getAccountState s).2
  | .getPosition symbol => (A.getPosition symbol s).2
  | .getOpenOrders symbol => (A.getOpenOrders symbol s).2
  | .getOrderStatus clientOrderId => (A.getOrderStatus clientOrderId s).2
  | .placeOrder request => (A.placeOrder request s).2
  | .cancelOrder clientOrderId => (A.cancelOrder clientOrderId s).2
  | .setLeverage symbol leverage => (A.setLeverage symbol leverage s).2
  | .setMarginType symbol marginType => (A.setMarginType symbol marginType s).2
  | .getFeeRates => (A.getFeeRates s).2

/-- A call, or what happens between calls. -/
inductive Step (A : BingXAdapter ω) : BingXState ω → BingXState ω → Prop
  | calls (m : Method) (s : BingXState ω) : Step A s (A.after s m)
  | between (w : ω) (s : BingXState ω) : Step A s { s with retry := { s.retry with world := w } }

theorem Step.keeps (h : KeptByAttempts A.toRetryWorld P) (hstep : Step A s s') (hs : P s.retry) :
    P s'.retry := by
  cases hstep with
  | between w s => exact h.world w hs
  | calls m s =>
    cases m with
    | getAccountState => exact (Keeps.bind (keeps_signedRequest h _) fun _ => .ofExcept _) s hs
    | getPosition symbol => exact (Keeps.bind (keeps_signedRequest h _) fun _ => .ofExcept _) s hs
    | getOpenOrders symbol => exact keeps_getOpenOrders h symbol s hs
    | getOrderStatus id => exact keeps_getOrderStatus h id s hs
    | placeOrder request => exact keeps_placeOrder h request s hs
    | cancelOrder id => exact keeps_cancelOrder h id s hs
    | setLeverage symbol leverage =>
      exact (Keeps.ite (.throw _) (.bind (keeps_signedRequest h _) fun _ => .pure _)) s hs
    | setMarginType symbol marginType => exact keeps_setMarginType (keeps_signedRequest h _) s hs
    | getFeeRates => exact keeps_getFeeRates h s hs

end BingXAdapter

/-- The breaker as the last operation of a log has left it. -/
def lastLeft (start : CircuitBreaker) (log : List (Attempt ε)) : CircuitBreaker :=
  (log.getLast?.bind (·.left)).getD start

/-- An operation has moved the breaker towards OPEN. -/
def MovesToOpen (start : CircuitBreaker) (before : List (Attempt ε)) (a : Attempt ε) : Prop :=
  ∃ b, a.left = some b ∧ ((lastLeft start before).consecutiveFailures < b.consecutiveFailures ∨
    b.state = .open ∧ (lastLeft start before).state ≠ .open)

/-- How each operation of a log has left the breaker behind. -/
structure Linked (start : CircuitBreaker) (s : RetryState ω ε) : Prop where
  breaker : s.breaker = some (lastLeft start s.log)
  each : EachAfter (fun before a => ∃ b, a.left = some b ∧
    (a.failure = none → b.state = .closed) ∧
    (a.failure.isSome → b.consecutiveFailures = (lastLeft start before).consecutiveFailures + 1))
    s.log

theorem lastLeft_snoc (start b : CircuitBreaker) (log : List (Attempt ε)) (a : Attempt ε)
    (h : a.left = some b) : lastLeft start (log ++ [a]) = b := by
  simp [lastLeft, h]

namespace Linked

variable {ε : Type} {W : RetryWorld ω} {start : CircuitBreaker} {s s₁ : RetryState ω ε}

/-- The breaker that a refused call leaves is the one that it found. -/
theorem refused (h : Linked start s) (hbefore : s.beforeCall W = (.error e, s₁)) :
    Linked start s₁ := by
  obtain ⟨b', w', hadmission, rfl⟩ := RetryState.beforeCall_breaker h.breaker hbefore
  obtain rfl := hadmission.of_error
  exact ⟨rfl, h.each⟩

/-- The breaker that lets an operation through has the failures that it was found with. -/
theorem admitted (h : Linked start s) (hbefore : s.beforeCall W = (.ok checkedAt, s₁)) :
    ∃ b₁, s₁.breaker = some b₁ ∧ s₁.log = s.log ∧
      b₁.consecutiveFailures = (lastLeft start s.log).consecutiveFailures := by
  have hlog := s.beforeCall_log W
  rw [hbefore] at hlog
  obtain ⟨b₁, w₁, hadmission, rfl⟩ := RetryState.beforeCall_breaker h.breaker hbefore
  refine ⟨b₁, rfl, hlog, ?_⟩
  cases hadmission with
  | passes => rfl
  | probes => rfl

theorem kept (W : RetryWorld ω) (start : CircuitBreaker) :
    KeptByAttempts (ε := ε) W (Linked start) where
  world w := fun h => ⟨h.breaker, h.each⟩
  refused := refused
  succeeded := by
    intro s checkedAt s₁ w h hbefore
    obtain ⟨b₁, hb₁, hlog, -⟩ := h.admitted hbefore
    simp only [RetryState.onSuccess, hb₁, hlog, Option.map_some]
    refine ⟨congrArg some (lastLeft_snoc start _ _ _ rfl).symm, h.each.snoc ?_⟩
    exact ⟨_, rfl, fun _ => rfl, by simp⟩
  failed := by
    intro s checkedAt s₁ e w h hbefore
    obtain ⟨b₁, hb₁, hlog, hcount⟩ := h.admitted hbefore
    simp only [RetryState.onFailure, hb₁, hlog]
    refine ⟨congrArg some (lastLeft_snoc start _ _ _ rfl).symm, h.each.snoc ?_⟩
    refine ⟨_, rfl, by simp, fun _ => ?_⟩
    rw [(b₁.onFailure_counts W w).2, hcount]

end Linked

/-- Business errors do not move the breaker towards OPEN, and without a transport failure it is
not open unless it was at the start. -/
structure BusinessErrorsIgnored (start : CircuitBreaker) (s : RetryState ω BingXError) : Prop where
  uncounted : EachAfter (fun before a => ∀ e, a.failure = some e → ¬isRetryableBingxError e →
    ¬MovesToOpen start before a) s.log
  unblocked : (∀ a ∈ s.log, ∀ e, a.failure = some e → ¬isRetryableBingxError e) →
    start.state ≠ .open → ∃ b, s.breaker = some b ∧ b.state ≠ .open

/-- No request has been answered with anything but data or a transport failure. -/
def OnlyTransportFails (log : List (Attempt BingXError)) : Prop :=
  ∀ a ∈ log, ∀ e, a.failure = some e → isRetryableBingxError e

theorem Linked.ignored_iff {start : CircuitBreaker} {s : RetryState ω BingXError}
    (h : Linked start s) : BusinessErrorsIgnored start s ↔ OnlyTransportFails s.log := by
  constructor
  · intro hignored a hm e he
    obtain ⟨before, after, hsplit⟩ := List.append_of_mem hm
    obtain ⟨b, hb, -, hcounts⟩ := h.each before a after hsplit
    by_contra hbusiness
    refine hignored.uncounted before a after hsplit e he hbusiness ⟨b, hb, .inl ?_⟩
    rw [hcounts (by rw [he]; rfl)]
    exact Nat.lt_succ_self _
  · intro honly
    constructor
    · intro before a after hsplit e he hbusiness
      exact absurd (honly a (by rw [hsplit]; simp) e he) hbusiness
    · intro hnone hstart
      refine ⟨_, h.breaker, ?_⟩
      rcases List.eq_nil_or_concat s.log with hnil | ⟨before, a, hsplit⟩
      · rw [hnil]
        exact hstart
      · rw [List.concat_eq_append] at hsplit
        obtain ⟨b, hb, hclosed, -⟩ := h.each before a [] hsplit
        have hfailure : a.failure = none := by
          rcases hf : a.failure with _ | e
          · rfl
          · have hm : a ∈ s.log := by rw [hsplit]; simp
            exact absurd (honly a hm e hf) (hnone a hm e hf)
        rw [hsplit, lastLeft_snoc start b _ _ hb, hclosed hfailure]
        decide

/-- An adapter that has not been called yet. -/
def BingXAdapter.start (b : CircuitBreaker) (w : ω) : BingXState ω where
  retry := ⟨some b, w, []⟩

theorem BingXAdapter.calls_linked (A : BingXAdapter ω) (b : CircuitBreaker) (w : ω)
    (hr : Relation.ReflTransGen A.Step (start b w) s) : Linked b s.retry := by
  induction hr with
  | refl => exact ⟨rfl, .nil⟩
  | tail _ hstep ih => exact hstep.keeps (Linked.kept A.toRetryWorld b) ih

/-- An exchange that knows of no order and answers all else; it counts the requests. -/
def unknownOrders : BingXAdapter ℕ where
  monotonic n := (0, n)
  uniform low _ n := (low, n)
  elapse _ n := n
  uniform_bounds h := ⟨le_rfl, h⟩
  http request n :=
    match request with
    | .order _ _ => (.response 200 (.ok ⟨some 100400, none⟩), n + 1)
    | _ => (.response 200 (.ok ⟨some 0, some .other⟩), n + 1)
  utcNow _ := 0
  environment := .live
  allowedSymbols := allowedSymbols

/-- The order that closes a position. -/
def protectiveClose : OrderRequest :=
  ⟨{ clientOrderId := "close", symbol := "BTCUSDT", side := .sell, orderType := .market,
     quantity := 1, price := none, isReduceOnly := true }, by decide +kernel⟩

/-- Over any calls of the adapter business errors are ignored exactly if there are none. -/
theorem BingXAdapter.business_errors_iff (A : BingXAdapter ω) (b : CircuitBreaker) (w : ω)
    {s : BingXState ω} (hr : Relation.ReflTransGen A.Step (start b w) s) :
    BusinessErrorsIgnored b s.retry ↔ OnlyTransportFails s.retry.log :=
  (A.calls_linked b w hr).ignored_iff

theorem lookup_business_errors : BusinessErrorsIgnored {}
      (unknownOrders.after (BingXAdapter.start {} 0) (.getOrderStatus "unknown")).retry ↔
    OnlyTransportFails
      (unknownOrders.after (BingXAdapter.start {} 0) (.getOrderStatus "unknown")).retry.log :=
  unknownOrders.business_errors_iff {} 0 (.tail .refl (.calls (.getOrderStatus "unknown") _))

/-- Looking an unknown order up blocks the close of a position: the exchange does not hear of
it. -/
theorem lookup_blocks_close : ∃ s, Relation.ReflTransGen unknownOrders.Step
      (BingXAdapter.start {} 0) s ∧
    (unknownOrders.placeOrder protectiveClose s).1 = .error (.bingXApiError (.circuitOpen 5)) ∧
    (unknownOrders.placeOrder protectiveClose s).2.retry.world = s.retry.world ∧
    ¬BusinessErrorsIgnored {} s.retry := by
  have hr : Relation.ReflTransGen unknownOrders.Step (BingXAdapter.start {} 0)
      (unknownOrders.after (BingXAdapter.start {} 0) (.getOrderStatus "unknown")) :=
    .tail .refl (.calls (.getOrderStatus "unknown") _)
  refine ⟨_, hr, Eff.error_of_raised (by decide +kernel), by decide +kernel, ?_⟩
  rw [(unknownOrders.calls_linked {} 0 hr).ignored_iff]
  intro honly
  have hfirst : (unknownOrders.after (BingXAdapter.start {} 0)
      (.getOrderStatus "unknown")).retry.log.head?.map (·.failure) =
        some (some (.bingXApiError (.answered (some 100400)))) := by
    decide +kernel
  obtain ⟨a, ha, hfailure⟩ := Option.map_eq_some_iff.mp hfirst
  exact absurd (honly a (List.mem_of_mem_head? ha) _ hfailure) (by decide)

end FuturesBot
