import FuturesBot.Exchange.BusinessErrors
import FuturesBot.Exchange.Requests
import FuturesBot.Lib.Loops

namespace FuturesBot
open Lib

variable {ω : Type}

/-- The exchange has answered that the order does not exist. -/
def BingXError.SaysAbsent (doesNotExist : ℤ → Prop) (e : BingXError) : Prop :=
  ∃ code, e = .bingXApiError (.answered (some code)) ∧ doesNotExist code

/-- What the exchange answers about an order when it does: the order of the symbol, and that
it does not exist only where it does not. -/
structure AnswersCorrectly (A : BingXAdapter ω) (id : ClientOrderId)
    (holds : String → Option RawOrder) (doesNotExist : ℤ → Prop) : Prop where
  found : ∀ symbol w data, (A.http (.order symbol id) w).1.read = .ok data →
    extractOrder data = holds symbol
  absent : ∀ symbol w e, (A.http (.order symbol id) w).1.read = .error e →
    e.SaysAbsent doesNotExist → holds symbol = none

namespace BingXAdapter

variable {A : BingXAdapter ω} {id : ClientOrderId} {s s' : BingXState ω}

theorem takeOrder_some (A : BingXAdapter ω) (id : ClientOrderId) (symbol : Symbol)
    (raw : RawOrder) (s : BingXState ω) : (A.takeOrder id symbol (some raw) s).1 =
      ((parseOrder (A.utcNow s.retry.world) raw symbol).mapError .other).map some := by
  have hcached : A.takeOrder id symbol (some raw) s = (A.readOrder raw symbol >>= fun result =>
      pure (some result)) (cacheOrder id symbol s).2 := Eff.bind_ok rfl
  have hread : A.readOrder raw symbol (cacheOrder id symbol s).2 =
      ((parseOrder (A.utcNow s.retry.world) raw symbol).mapError .other,
        (cacheOrder id symbol s).2) := rfl
  rw [hcached]
  rcases hparsed : parseOrder (A.utcNow s.retry.world) raw symbol with e | result
  · rw [hparsed] at hread
    rw [Eff.bind_error hread]
    rfl
  · rw [hparsed] at hread
    rw [Eff.bind_ok hread]
    rfl

/-- How the probe of a symbol ends, from how its request does. -/
theorem probe_cases (A : BingXAdapter ω) (id : ClientOrderId) (symbol : Symbol)
    (s : BingXState ω) :
    (∃ e s', A.signedRequest (.order (toBingxSymbol symbol) id) s = (.error e, s') ∧
      (A.probe id symbol s).1 = .error e) ∨
    ∃ data s', A.signedRequest (.order (toBingxSymbol symbol) id) s = (.ok data, s') ∧
      ((extractOrder data = none ∧ (A.probe id symbol s).1 = .ok none) ∨
      ∃ raw now, extractOrder data = some raw ∧ (A.probe id symbol s).1 =
        ((parseOrder now raw symbol).mapError .other).map some) := by
  rcases hrequest : A.signedRequest (.order (toBingxSymbol symbol) id) s with ⟨e | data, s'⟩
  · exact .inl ⟨e, s', rfl, congrArg Prod.fst (Eff.bind_error hrequest)⟩
  · have hprobe : A.probe id symbol s = A.takeOrder id symbol (extractOrder data) s' :=
      Eff.bind_ok hrequest
    refine .inr ⟨data, s', rfl, ?_⟩
    rcases hextract : extractOrder data with _ | raw
    · rw [hprobe, hextract]
      exact .inl ⟨rfl, rfl⟩
    · rw [hprobe, hextract]
      exact .inr ⟨raw, _, rfl, A.takeOrder_some id symbol raw s'⟩

/-- The request for the order under a symbol. -/
def ask (A : BingXAdapter ω) (id : ClientOrderId) (symbol : Symbol) : BingXCall ω ResponseData :=
  A.signedRequest (.order (toBingxSymbol symbol) id)

/-- An answer without an order, or an error that the lookup passes over. -/
def IsQuiet : Except BingXError ResponseData → Prop
  | .ok data => extractOrder data = none
  | .error e => goesOn e

/-- An error that the lookup passes over though it does not say that the order does not exist. -/
def Unheard (doesNotExist : ℤ → Prop) (answer : Except BingXError ResponseData) : Prop :=
  ∃ e, answer = .error e ∧ goesOn e ∧ ¬e.SaysAbsent doesNotExist

/-- Requests for one symbol after the other that the lookup goes on after. -/
inductive QuietRun (A : BingXAdapter ω) (id : ClientOrderId) :
    List Symbol → BingXState ω → BingXState ω → Prop
  | nil (s : BingXState ω) : QuietRun A id [] s s
  | cons {symbol : Symbol} {symbols : List Symbol} {s s' : BingXState ω} :
      IsQuiet (A.ask id symbol s).1 → QuietRun A id symbols (A.ask id symbol s).2 s' →
      QuietRun A id (symbol :: symbols) s s'

theorem probeAll_quiet (h : IsQuiet (A.ask id symbol s).1) (symbols : List Symbol) :
    A.probeAll id (symbol :: symbols) s = A.probeAll id symbols (A.ask id symbol s).2 := by
  rcases hask : A.ask id symbol s with ⟨e | data, s'⟩
  · have hgoes : goesOn e := by rwa [hask] at h
    have hprobe : A.probe id symbol s = (.error e, s') := Eff.bind_error hask
    have hcaught : (tryCatch (A.probe id symbol) fun e => if goesOn e then pure none else throw e)
        s = (.ok none, s') := by
      rw [Eff.tryCatch_error hprobe, if_pos hgoes]
      rfl
    exact Eff.bind_ok hcaught
  · rw [hask] at h
    have hprobe : A.probe id symbol s = (.ok none, s') := by
      have htake : A.probe id symbol s = A.takeOrder id symbol (extractOrder data) s' :=
        Eff.bind_ok hask
      rw [htake, show extractOrder data = none from h]
      rfl
    exact Eff.bind_ok (Eff.tryCatch_ok hprobe)

/-- Any other answer ends the lookup with what the probe has found or raised. -/
theorem probeAll_not_quiet (h : ¬IsQuiet (A.ask id symbol s).1) (symbols : List Symbol) :
    (A.probeAll id (symbol :: symbols) s).1 = (A.probe id symbol s).1 ∧
      (A.probe id symbol s).1 ≠ .ok none := by
  have hprobe : (A.probe id symbol s).1 ≠ .ok none ∧
      ∀ e, (A.probe id symbol s).1 = .error e → ¬goesOn e := by
    rcases A.probe_cases id symbol s with
      ⟨e, s', hask, hprobe⟩ | ⟨data, s', hask, ⟨hextract, -⟩ | ⟨raw, now, -, hprobe⟩⟩
    · have hends : ¬goesOn e := by rwa [ask, hask] at h
      rw [hprobe]
      refine ⟨by simp, fun e' he => ?_⟩
      cases he
      exact hends
    · rw [ask, hask] at h
      exact absurd hextract h
    · rw [hprobe]
      rcases parseOrder now raw symbol with e | result
      · refine ⟨by simp [Except.mapError, Except.map], fun e' he => ?_⟩
        cases he
        simp [goesOn]
      · simp [Except.mapError, Except.map]
  refine ⟨?_, hprobe.1⟩
  rcases hrun : A.probe id symbol s with ⟨e | _ | result, s'⟩
  · rw [hrun] at hprobe
    have hcaught : (tryCatch (A.probe id symbol) fun e => if goesOn e then pure none else throw e)
        s = (.error e, s') := by
      rw [Eff.tryCatch_error hrun, if_neg (hprobe.2 e rfl)]
      rfl
    exact congrArg Prod.fst (Eff.bind_error hcaught)
  · exact absurd (congrArg Prod.fst hrun) hprobe.1
  · exact congrArg Prod.fst (Eff.bind_ok (Eff.tryCatch_ok hrun))

/-- The lookup finds nothing exactly if it goes on after every request. -/
theorem probeAll_none_iff {symbols : List Symbol} :
    (A.probeAll id symbols s).1 = .ok none ↔ ∃ s', QuietRun A id symbols s s' := by
  induction symbols generalizing s with
  | nil => exact ⟨fun _ => ⟨s, .nil s⟩, fun _ => rfl⟩
  | cons symbol symbols ih =>
    by_cases hquiet : IsQuiet (A.ask id symbol s).1
    · rw [probeAll_quiet hquiet, ih]
      constructor
      · intro hrest
        obtain ⟨s', hrest⟩ := hrest
        exact ⟨s', .cons hquiet hrest⟩
      · intro hrun
        obtain ⟨s', hrun⟩ := hrun
        cases hrun with
        | cons _ hrest => exact ⟨s', hrest⟩
    · rw [(probeAll_not_quiet hquiet symbols).1]
      constructor
      · intro hnone
        exact absurd hnone (probeAll_not_quiet hquiet symbols).2
      · intro hrun
        obtain ⟨s', hrun⟩ := hrun
        cases hrun with
        | cons hq _ => exact absurd hq hquiet

/-- What the lookup finds, a probe has found. -/
theorem probeAll_found {symbols : List Symbol}
    (h : (A.probeAll id symbols s).1 = .ok (some result)) :
    ∃ symbol ∈ symbols, ∃ s', (A.probe id symbol s').1 = .ok (some result) := by
  induction symbols generalizing s with
  | nil => cases h
  | cons symbol symbols ih =>
    by_cases hquiet : IsQuiet (A.ask id symbol s).1
    · rw [probeAll_quiet hquiet] at h
      obtain ⟨other, hm, hfound⟩ := ih h
      exact ⟨other, List.mem_cons_of_mem _ hm, hfound⟩
    · rw [(probeAll_not_quiet hquiet symbols).1] at h
      exact ⟨symbol, List.mem_cons_self, s, h⟩

theorem quietRun_append {before after : List Symbol} :
    QuietRun A id (before ++ after) s s' ↔
      ∃ s₁, QuietRun A id before s s₁ ∧ QuietRun A id after s₁ s' := by
  induction before generalizing s with
  | nil =>
    constructor
    · exact fun h => ⟨s, .nil s, h⟩
    · intro h
      obtain ⟨s₁, hnil, h⟩ := h
      cases hnil
      exact h
  | cons symbol before ih =>
    constructor
    · intro h
      cases h with
      | cons hquiet hrest =>
        obtain ⟨s₁, hbefore, hafter⟩ := ih.mp hrest
        exact ⟨s₁, .cons hquiet hbefore, hafter⟩
    · intro h
      obtain ⟨s₁, hbefore, hafter⟩ := h
      cases hbefore with
      | cons hquiet hrest => exact .cons hquiet (ih.mpr ⟨s₁, hrest, hafter⟩)

section
variable {holds : String → Option RawOrder} {doesNotExist : ℤ → Prop}

/-- An answer without an order, or that says so, is right about the symbol. -/
theorem ask_nothing (hA : AnswersCorrectly A id holds doesNotExist)
    (h : IsQuiet (A.ask id symbol s).1) (hheard : ¬Unheard doesNotExist (A.ask id symbol s).1) :
    holds (toBingxSymbol symbol) = none := by
  rcases hask : A.ask id symbol s with ⟨e | data, s'⟩
  · rw [hask] at h hheard
    have habsent : e.SaysAbsent doesNotExist := by
      by_contra habsent
      exact hheard ⟨e, rfl, h, habsent⟩
    rcases signedRequest_error (.trivial A.toRetryWorld) ⟨⟩ hask with
      ⟨w, hw⟩ | ⟨_, error, _, hrefused, herror⟩
    · exact hA.absent _ w _ hw habsent
    · obtain ⟨code, rfl, -⟩ := habsent
      cases error with
      | raised e =>
        rcases RetryState.beforeCall_error hrefused with h | ⟨failures, h⟩ <;> cases h
      | _ => cases herror
  · rw [hask] at h
    obtain ⟨w, hw, -⟩ := signedRequest_ok hask
    exact (hA.found _ w data hw).symm.trans h

theorem probe_order (hA : AnswersCorrectly A id holds doesNotExist)
    (h : (A.probe id symbol s).1 = .ok (some result)) :
    ∃ raw now, holds (toBingxSymbol symbol) = some raw ∧ parseOrder now raw symbol = .ok result := by
  rcases A.probe_cases id symbol s with
    ⟨e, s', hrequest, hprobe⟩ |
      ⟨data, s', hrequest, ⟨hextract, hprobe⟩ | ⟨raw, now, hextract, hprobe⟩⟩
  · cases hprobe.symm.trans h
  · cases hprobe.symm.trans h
  · obtain ⟨w, hw, -⟩ := signedRequest_ok hrequest
    refine ⟨raw, now, (hA.found _ w data hw).symm.trans hextract, ?_⟩
    rw [hprobe] at h
    rcases hparsed : parseOrder now raw symbol with e | found
    · rw [hparsed] at h
      cases h
    · rw [hparsed] at h
      cases h
      rfl

/-- What a lookup tells of an order: that no symbol has it, or the order of a symbol that has. -/
structure TellsAbsence (A : BingXAdapter ω) (id : ClientOrderId) (holds : String → Option RawOrder)
    (s : BingXState ω) : Prop where
  absent : (A.getOrderStatus id s).1 = .ok none →
    ∀ symbol ∈ A.candidates id s, holds (toBingxSymbol symbol) = none
  found : ∀ result, (A.getOrderStatus id s).1 = .ok (some result) →
    ∃ symbol ∈ A.candidates id s, ∃ raw now, holds (toBingxSymbol symbol) = some raw ∧
      parseOrder now raw symbol = .ok result

/-- The exchange is heard about every symbol that has the order, unless a later answer ends the
lookup. -/
def HoldersHeard (A : BingXAdapter ω) (id : ClientOrderId) (holds : String → Option RawOrder)
    (doesNotExist : ℤ → Prop) (s : BingXState ω) : Prop :=
  ∀ before symbol after s₁, A.candidates id s = before ++ symbol :: after →
    (holds (toBingxSymbol symbol)).isSome → QuietRun A id before s s₁ →
    Unheard doesNotExist (A.ask id symbol s₁).1 →
    ∀ s₂, ¬QuietRun A id after (A.ask id symbol s₁).2 s₂

/-- A lookup tells absence from failure exactly if no symbol that has the order is passed over
after an error. -/
theorem tellsAbsence_iff (hA : AnswersCorrectly A id holds doesNotExist) :
    TellsAbsence A id holds s ↔ HoldersHeard A id holds doesNotExist s := by
  constructor
  · intro htells before symbol after s₁ hsplit hholds hbefore hunheard s₂ hafter
    obtain ⟨e, hask, hgoes, -⟩ := hunheard
    have hquiet : IsQuiet (A.ask id symbol s₁).1 := by rwa [hask]
    have hrun : QuietRun A id (A.candidates id s) s s₂ := by
      rw [hsplit, quietRun_append]
      exact ⟨s₁, hbefore, .cons hquiet hafter⟩
    have hnone := htells.absent (probeAll_none_iff.mpr ⟨s₂, hrun⟩) symbol (by rw [hsplit]; simp)
    rw [hnone] at hholds
    cases hholds
  · intro hheard
    refine ⟨?_, ?_⟩
    · intro hnone symbol hm
      obtain ⟨s₂, hrun⟩ := probeAll_none_iff.mp hnone
      obtain ⟨before, after, hsplit⟩ := List.append_of_mem hm
      rw [hsplit, quietRun_append] at hrun
      obtain ⟨s₁, hbefore, hrest⟩ := hrun
      by_contra hholds
      cases hrest with
      | cons hquiet hafter =>
        refine hholds (ask_nothing hA hquiet fun hunheard => ?_)
        exact hheard before symbol after s₁ hsplit (Option.isSome_iff_ne_none.mpr hholds) hbefore
          hunheard s₂ hafter
    · intro result hfound
      obtain ⟨symbol, hm, s₁, hprobe⟩ := probeAll_found hfound
      obtain ⟨raw, now, hraw, hparsed⟩ := probe_order hA hprobe
      exact ⟨symbol, hm, raw, now, hraw, hparsed⟩

end

end BingXAdapter

/-- The order of the first symbol. -/
def heldOrder : RawOrder := { side := some "BUY" }

/-- An exchange that has an order under one symbol and refuses to say so, as it has been asked
too often. -/
def busyExchange : BingXAdapter ℕ :=
  { unknownOrders with
    http := fun request n =>
      match request with
      | .order symbol _ =>
        if symbol = "BTC-USDT" then (.response 429 (.error (.valueError "json")), n + 1)
        else (.response 200 (.ok ⟨some 100400, none⟩), n + 1)
      | _ => (.response 200 (.ok ⟨some 0, some .other⟩), n + 1) }

def heldInBtc (symbol : String) : Option RawOrder :=
  if symbol = "BTC-USDT" then some heldOrder else none

theorem busyExchange_correct : AnswersCorrectly busyExchange "held" heldInBtc (· = 100400) := by
  constructor
  · intro symbol w data h
    by_cases hs : symbol = "BTC-USDT" <;> simp [busyExchange, hs, HttpOutcome.read] at h
  · intro symbol w e h habsent
    by_cases hs : symbol = "BTC-USDT"
    · obtain ⟨code, rfl, -⟩ := habsent
      simp [busyExchange, hs, HttpOutcome.read] at h
    · exact if_neg hs

theorem busyExchange_tellsAbsence_iff :
    BingXAdapter.TellsAbsence busyExchange "held" heldInBtc (BingXAdapter.start {} 0) ↔
      BingXAdapter.HoldersHeard busyExchange "held" heldInBtc (· = 100400)
        (BingXAdapter.start {} 0) :=
  BingXAdapter.tellsAbsence_iff busyExchange_correct

/-- The order that the exchange has is reported as absent. -/
theorem held_order_absent :
    AnswersCorrectly busyExchange "held" heldInBtc (· = 100400) ∧
    ¬BingXAdapter.TellsAbsence busyExchange "held" heldInBtc (BingXAdapter.start {} 0) := by
  refine ⟨busyExchange_correct, fun htells => ?_⟩
  have hm : "BTCUSDT" ∈ busyExchange.candidates "held" (BingXAdapter.start {} 0) := by
    decide +kernel
  have hnone : (busyExchange.getOrderStatus "held" (BingXAdapter.start {} 0)).1 = .ok none := by
    obtain ⟨found, hok, hnone⟩ := ok_of_map (f := Option.isNone) (b := true)
      (r := (busyExchange.getOrderStatus "held" (BingXAdapter.start {} 0)).1) (by decide +kernel)
    rw [hok, Option.isNone_iff_eq_none.mp hnone]
  have hheld := htells.absent hnone "BTCUSDT" hm
  have hsymbol : toBingxSymbol "BTCUSDT" = "BTC-USDT" := by decide +kernel
  rw [hsymbol] at hheld
  cases hheld

end FuturesBot
