import FuturesBot.Positions.Closing
import FuturesBot.Positions.DeskLocality

namespace FuturesBot
open Lib PositionManager PositionTickService

theorem PositionManager.tick_symbol (h : tick A s mark atr book oid now d = (.ok r, d')) :
    r.symbol = s := by
  cases tick_outcome h with
  | absent | unconfigured | quiet => rfl
  | fired _ _ _ _ hf => exact (fire_report hf).1

theorem tickSymbol_symbol (h : tickSymbol A i s d = (o, d')) : ∀ r ∈ o, r.symbol = s := by
  unfold tickSymbol at h
  split at h
  · cases h
    simp
  · split at h
    · rename_i htick
      cases h
      intro r hr
      cases hr
      exact tick_symbol htick
    · cases h
      simp

/-- A turn reports about its own symbol only. -/
theorem tickSymbol_reports (A : ExchangeAdapter σ) (i : CycleInputs) (s s₀ : Symbol) (d : Desk σ) :
    (tickSymbol A i s₀ d).1.toList.filter (·.symbol = s) =
      if s = s₀ then (tickSymbol A i s₀ d).1.toList else [] := by
  have hsymbol : ∀ r ∈ (tickSymbol A i s₀ d).1.toList, r.symbol = s₀ :=
    fun r hr => tickSymbol_symbol rfl r (Option.mem_toList.mp hr)
  split
  · rename_i hs
    rw [List.filter_eq_self]
    exact fun r hr => decide_eq_true ((hsymbol r hr).trans hs.symm)
  · rename_i hs
    rw [List.filter_eq_nil_iff]
    intro r hr
    rw [hsymbol r hr]
    simpa using Ne.symm hs

theorem tickSymbols_reports (A : ExchangeAdapter σ) (i : CycleInputs) (s s₀ : Symbol)
    (ss : List Symbol) (d : Desk σ) :
    (tickSymbols A i (s₀ :: ss) d).1.filter (·.symbol = s) =
      (if s = s₀ then (tickSymbol A i s₀ d).1.toList else []) ++
        (tickSymbols A i ss (tickSymbol A i s₀ d).2).1.filter (·.symbol = s) := by
  rw [← tickSymbol_reports, ← List.filter_append]
  rfl

/-- A call about one symbol, on the manager or on the exchange. -/
inductive DeskCall
  | setConfig (config : PositionConfig)
  | updateSl (symbol : Symbol) (newSl : Amount)
  | updateTp (symbol : Symbol) (newTp : Amount)
  | removeConfig (symbol : Symbol)
  | invalidate (symbol : Symbol) (markPrice : Amount) (book : Option (Amount × Amount))
      (orderId : ClientOrderId)
  | tick (symbol : Symbol) (markPrice : Amount) (atr : Option Amount)
      (book : Option (Amount × Amount)) (orderId : ClientOrderId) (now : Seconds)
  | place (request : OrderRequest)
  | setLeverage (symbol : Symbol) (leverage : ℤ)

/-- What a call returns. -/
inductive DeskReply
  | done
  | invalidated (result : Option TickResult)
  | ticked (result : TickResult)
  | placed (result : OrderResult)

namespace DeskCall

def symbol : DeskCall → Symbol
  | .setConfig c => c.symbol
  | .updateSl s _ | .updateTp s _ | .removeConfig s | .invalidate s _ _ _ | .tick s _ _ _ _ _
  | .setLeverage s _ => s
  | .place req => req.symbol

/-- The orders of a call have identifiers of its symbol. -/
def Owned (owner : ClientOrderId → Symbol) : DeskCall → Prop
  | .invalidate s _ _ oid | .tick s _ _ _ oid _ => owner oid = s
  | .place req => owner req.clientOrderId = req.symbol
  | .setConfig _ | .updateSl _ _ | .updateTp _ _ | .removeConfig _ | .setLeverage _ _ => True

def perform (A : ExchangeAdapter σ) : DeskCall → Call (Desk σ) DeskReply
  | .setConfig c => fun d => (.ok .done, { d with manager := d.manager.setConfig c })
  | .updateSl s sl => fun d =>
    let (r, m) := d.manager.updateSl s sl
    (r.map fun _ => .done, { d with manager := m })
  | .updateTp s tp => fun d =>
    let (r, m) := d.manager.updateTp s tp
    (r.map fun _ => .done, { d with manager := m })
  | .removeConfig s => fun d => (.ok .done, { d with manager := d.manager.removeConfig s })
  | .invalidate s mark book oid => fun d =>
    let (r, d) := triggerSetupInvalidation A s mark book oid d
    (r.map .invalidated, d)
  | .tick s mark atr book oid now => fun d =>
    let (r, d) := PositionManager.tick A s mark atr book oid now d
    (r.map .ticked, d)
  | .place req => fun d =>
    let (r, x) := A.placeOrder req d.exchange
    (r.map .placed, { d with exchange := x })
  | .setLeverage s n => fun d =>
    let (r, x) := A.setLeverage s n d.exchange
    (r.map fun _ => .done, { d with exchange := x })

end DeskCall

/-- Anyone's call, or a cycle of the tick service. -/
inductive DeskTurn
  | call (c : DeskCall)
  | cycle (inputs : CycleInputs)

/-- A cycle in which all symbols meet what this one does. -/
def CycleInputs.only (s : Symbol) (i : CycleInputs) : CycleInputs where
  getMarkPrice _ := i.getMarkPrice s
  getBook _ := i.getBook s
  orderId _ := i.orderId s
  monotonic _ := i.monotonic s

namespace DeskTurn

def Owned (owner : ClientOrderId → Symbol) : DeskTurn → Prop
  | .call c => c.Owned owner
  | .cycle i => ∀ s, owner (i.orderId s) = s

/-- A symbol meets the calls about it, and its own prices, books and identifiers of a cycle. -/
def shareOf (s : Symbol) : DeskTurn → Option DeskTurn
  | .call c => if c.symbol = s then some (.call c) else none
  | .cycle i => some (.cycle (i.only s))

def reportOf (results : List TickResult) : List (Symbol × Except PyError DeskReply) :=
  results.map fun r => (r.symbol, .ok (.ticked r))

def run (A : ExchangeAdapter σ) : DeskTurn → Desk σ →
    List (Symbol × Except PyError DeskReply) × Desk σ
  | .call c => fun d =>
    let (r, d) := c.perform A d
    ([(c.symbol, r)], d)
  | .cycle i => fun d =>
    let (results, d) := tickAll A i d
    (reportOf results, d)

/-- The turn of one symbol in a cycle. -/
def cycleAt (A : ExchangeAdapter σ) (i : CycleInputs) (s : Symbol) (d : Desk σ) :
    List TickResult × Desk σ :=
  if (d.manager.getConfig s).isSome then
    let (o, d) := tickSymbol A i s d
    (o.toList, d)
  else ([], d)

def runAt (A : ExchangeAdapter σ) (s : Symbol) : DeskTurn → Desk σ →
    List (Symbol × Except PyError DeskReply) × Desk σ
  | .call c => run A (.call c)
  | .cycle i => fun d =>
    let (results, d) := cycleAt A i s d
    (reportOf results, d)

end DeskTurn

namespace KeepsApart

variable {A : ExchangeAdapter σ} {B : Parts Symbol σ Amount} {owner : ClientOrderId → Symbol}
  (hA : KeepsApart A B owner)
include hA

theorem perform (c : DeskCall) (howned : c.Owned owner) :
    (Desk.parts B).LocalAt c.symbol (c.perform A) := by
  cases c with
  | setConfig c => exact Desk.changes B (.setConfig c) _
  | updateSl s sl => exact (Desk.onManager B (updateSl_local s sl)).map _
  | updateTp s tp => exact (Desk.onManager B (updateTp_local s tp)).map _
  | removeConfig s => exact Desk.changes B (.removeConfig s) _
  | invalidate s mark book oid => exact (hA.triggerSetupInvalidation howned mark book).map _
  | tick s mark atr book oid now => exact (hA.tick howned mark atr book now).map _
  | place req => exact (Desk.onExchange (hA.placeOrder req howned)).map _
  | setLeverage s n => exact (Desk.onExchange (hA.setLeverage s n)).map _

theorem tickSymbol (howned : owner (i.orderId s) = s) :
    (Desk.parts B).LocalAt s (PositionTickService.tickSymbol A i s) := by
  cases hmark : i.getMarkPrice s with
  | error e =>
    unfold PositionTickService.tickSymbol
    simp only [hmark]
    exact .pure _ s _
  | ok mark =>
    have hget : ∀ d d', (Desk.parts B).same s d d' →
        d.manager.getConfig s = d'.manager.getConfig s := fun _ _ h => h.1.config
    have hmissing : ∀ m m', parts.same s m m' →
        (m.getConfig s).isNone = (m'.getConfig s).isNone :=
      fun _ _ h => congrArg Option.isNone (PositionManager.SameAt.config h)
    -- A configuration is filed under its own symbol, so it is filed again there.
    have hagain : ∀ before : Option PositionConfig,
        ChangesAt s (reregister s (before.filter (·.symbol = s))) := by
      intro before
      cases hbefore : before.filter (·.symbol = s) with
      | none => exact .id s
      | some c =>
        have hsymbol : c.symbol = s := by simpa using (Option.filter_eq_some_iff.mp hbefore).2
        have hset : ∀ missing : Bool, ChangesAt s fun m =>
            if missing then m.setConfig c else m := by
          intro missing
          cases missing with
          | true => exact hsymbol ▸ .setConfig c
          | false => exact .id s
        have h := ChangesAt.read hmissing hset
        exact h
    have hticked := fun before =>
      (hA.tick howned mark none (bookFor i s) (i.monotonic s)).bindExcept
        (fun _ => Desk.changes B (hagain before) none) fun r => .pure _ s (some r)
    have h := Parts.LocalAt.read hget hticked
    refine h.congr fun d => ?_
    have hfiled : (d.manager.getConfig s).filter (·.symbol = s) = d.manager.getConfig s := by
      cases hc : d.manager.getConfig s with
      | none => rfl
      | some c => exact Option.filter_some_pos (decide_eq_true (d.manager.configs_symbol s c hc))
    unfold PositionTickService.tickSymbol
    simp only [hmark, hfiled]
    rcases PositionManager.tick A s mark none (bookFor i s) (i.orderId s) (i.monotonic s) d
      with ⟨_ | _, _⟩ <;> rfl

/-- The symbols of a cycle that are not this one neither report for it nor touch it. -/
theorem tickSymbols_elsewhere (howned : ∀ s, owner (i.orderId s) = s) (hs : s ∉ ss)
    (d : Desk σ) :
    (tickSymbols A i ss d).1.filter (·.symbol = s) = [] ∧
    (Desk.parts B).same s d (tickSymbols A i ss d).2 := by
  induction ss generalizing d with
  | nil => exact ⟨rfl, Parts.same_refl _ s d⟩
  | cons s₀ ss ih =>
    obtain ⟨hother, hrest⟩ := List.ne_and_not_mem_of_not_mem_cons hs
    obtain ⟨hreports, hsame⟩ := ih hrest (PositionTickService.tickSymbol A i s₀ d).2
    refine ⟨?_, Parts.same_trans ((hA.tickSymbol (howned s₀)).frame s hother d) hsame⟩
    rw [tickSymbols_reports, if_neg hother, hreports, List.append_nil]

/-- Wherever in a cycle its turn comes, a symbol has one turn. -/
theorem tickSymbols_once (howned : ∀ s, owner (i.orderId s) = s) (hn : ss.Nodup) (hs : s ∈ ss)
    (h : (Desk.parts B).same s d d') :
    (tickSymbols A i ss d).1.filter (·.symbol = s) =
      (PositionTickService.tickSymbol A i s d').1.toList ∧
    (Desk.parts B).same s (tickSymbols A i ss d).2
      (PositionTickService.tickSymbol A i s d').2 := by
  induction ss generalizing d with
  | nil => cases hs
  | cons s₀ ss ih =>
    obtain ⟨hnotin, hn⟩ := List.nodup_cons.mp hn
    have hturn := hA.tickSymbol (howned s₀)
    rw [tickSymbols_reports]
    by_cases hown : s = s₀
    · subst hown
      obtain ⟨hresult, hsame⟩ := hturn.own d d' h
      obtain ⟨hreports, hleft⟩ := hA.tickSymbols_elsewhere howned hnotin
        (PositionTickService.tickSymbol A i s d).2
      refine ⟨?_, Parts.same_trans (Parts.same_symm hleft) hsame⟩
      rw [if_pos rfl, hreports, List.append_nil, hresult]
    · have hlater := List.mem_of_ne_of_mem hown hs
      have hsame := Parts.same_trans (Parts.same_symm (hturn.frame s hown d)) h
      obtain ⟨hreports, hend⟩ := ih hn hlater hsame
      refine ⟨?_, hend⟩
      rw [if_neg hown, List.nil_append, hreports]

/-- A cycle comes down to the turn of each symbol that is registered. -/
theorem cycle (howned : ∀ s, owner (i.orderId s) = s) (s : Symbol) :
    (Desk.parts B).Agree s (Parts.reporting (·.symbol = s) (tickAll A i))
      (DeskTurn.cycleAt A i s) := by
  intro d d' h
  have hconfig : d.manager.configs.get s = d'.manager.configs.get s := h.1.config
  unfold DeskTurn.cycleAt getConfig
  cases hc : d'.manager.configs.get s with
  | none =>
    have hs : s ∉ d.manager.configuredSymbols := by
      intro hs
      obtain ⟨c, hfound⟩ := Dict.get_of_mem_keys hs
      rw [hconfig, hc] at hfound
      cases hfound
    obtain ⟨hreports, hsame⟩ := hA.tickSymbols_elsewhere howned hs d
    exact ⟨hreports, Parts.same_trans (Parts.same_symm hsame) h⟩
  | some c =>
    exact hA.tickSymbols_once howned d.manager.configs.nodup
      (Dict.mem_keys_of_get (hconfig.trans hc)) h

/-- Every turn does to a symbol what the share of the symbol in it does. -/
theorem turn (t : DeskTurn) (howned : t.Owned owner) (s : Symbol) :
    (Desk.parts B).Agree s (Parts.reporting (·.1 = s) (t.run A))
      ((t.shareOf s).elim (fun d => ([], d)) (DeskTurn.runAt A s)) := by
  cases t with
  | call c =>
    have hcall := hA.perform c howned
    by_cases hs : c.symbol = s
    · rw [DeskTurn.shareOf, if_pos hs]
      subst hs
      intro d d' h
      obtain ⟨hresult, hsame⟩ := hcall.own d d' h
      refine ⟨?_, hsame⟩
      simp [Parts.reporting, DeskTurn.run, DeskTurn.runAt, hresult]
    · rw [DeskTurn.shareOf, if_neg hs]
      intro d d' h
      refine ⟨?_, Parts.same_trans (Parts.same_symm (hcall.frame s (Ne.symm hs) d)) h⟩
      simp [Parts.reporting, DeskTurn.run, hs]
  | cycle i =>
    intro d d' h
    obtain ⟨hresults, hsame⟩ := hA.cycle howned s d d' h
    refine ⟨?_, hsame⟩
    change (DeskTurn.reportOf (tickAll A i d).1).filter _ =
      DeskTurn.reportOf (DeskTurn.cycleAt A i s d').1
    rw [← hresults, DeskTurn.reportOf, List.filter_map]
    rfl

/-- Two runs that have the same in it for a symbol come to the same for it. -/
theorem runs (howned : ∀ t ∈ turns, t.Owned owner) (howned' : ∀ t ∈ turns', t.Owned owner)
    (hshare : turns.filterMap (·.shareOf s) = turns'.filterMap (·.shareOf s)) :
    (Desk.parts B).Agree s
      (Parts.reporting (·.1 = s) (Parts.runAll (DeskTurn.run A) turns))
      (Parts.reporting (·.1 = s) (Parts.runAll (DeskTurn.run A) turns')) := by
  have hleft := Parts.runAll_projects fun t ht => hA.turn t (howned t ht) s
  have hright := Parts.runAll_projects fun t ht => hA.turn t (howned' t ht) s
  rw [← hshare] at hright
  exact hleft.of_both hright

end KeepsApart

/-- Desks of the simulation, whose calls may fail, in the parts of the symbols: what the manager
knows, the position, the leverage, the funding and the orders, and the failures to come. -/
def paperDesks (owner : ClientOrderId → Symbol) :
    Parts Symbol (Desk (PaperAdapter × (Symbol → List Bool))) Amount :=
  Desk.parts ((PaperAdapter.parts owner).along (List Bool))

/-- The calls about different symbols commute, and what a run does to a symbol depends on nothing
but its own calls, prices and failures. -/
theorem symbols_independent {owner : ClientOrderId → Symbol} {turns turns' : List DeskTurn}
    (howned : ∀ t ∈ turns, t.Owned owner) (howned' : ∀ t ∈ turns', t.Owned owner)
    (hshare : turns.filterMap (·.shareOf s) = turns'.filterMap (·.shareOf s))
    (hsame : (paperDesks owner).same s d d') :
    ((Parts.runAll (DeskTurn.run PaperAdapter.exchange.failing) turns d).1.filter (·.1 = s) =
      (Parts.runAll (DeskTurn.run PaperAdapter.exchange.failing) turns' d').1.filter (·.1 = s) ∧
    (paperDesks owner).same s
      (Parts.runAll (DeskTurn.run PaperAdapter.exchange.failing) turns d).2
      (Parts.runAll (DeskTurn.run PaperAdapter.exchange.failing) turns' d').2) ∧
    ∀ c c' : DeskCall, c.Owned owner → c'.Owned owner → c.symbol ≠ c'.symbol → ∀ d,
      (paperDesks owner).CommuteAt (c.perform PaperAdapter.exchange.failing)
        (c'.perform PaperAdapter.exchange.failing) d := by
  have hA := (PaperAdapter.exchange_keepsApart owner).failing
  refine ⟨hA.runs howned howned' hshare d d' hsame, fun c c' hc hc' hne d => ?_⟩
  exact (hA.perform c hc).commute (hA.perform c' hc') hne d

/-- A bought position with its target, and another symbol to tick. -/
def twoWatched : Desk (PaperAdapter × (Symbol → List Bool)) :=
  ⟨(deskWith wholeLevel).manager.setConfig { wholeLevel with symbol := "ETHUSDT" },
    bought, fun _ => []⟩

/-- One price for the symbols that have any, and an order identifier for each. -/
def cycleWith (priced : Symbol → Bool) : CycleInputs where
  getMarkPrice s := if priced s then .ok 110 else .error (.external "feed")
  getBook _ := .ok none
  orderId s := s
  monotonic _ := 0

theorem two_watched_independent :
    ((Parts.runAll (DeskTurn.run PaperAdapter.exchange.failing)
        [.cycle (cycleWith fun _ => true)] twoWatched).1.filter (·.1 = "BTCUSDT") =
      (Parts.runAll (DeskTurn.run PaperAdapter.exchange.failing)
        [.cycle (cycleWith (· = "BTCUSDT"))] twoWatched).1.filter (·.1 = "BTCUSDT") ∧
    (paperDesks id).same "BTCUSDT"
      (Parts.runAll (DeskTurn.run PaperAdapter.exchange.failing)
        [.cycle (cycleWith fun _ => true)] twoWatched).2
      (Parts.runAll (DeskTurn.run PaperAdapter.exchange.failing)
        [.cycle (cycleWith (· = "BTCUSDT"))] twoWatched).2) ∧
    ∀ c c' : DeskCall, c.Owned id → c'.Owned id → c.symbol ≠ c'.symbol → ∀ d,
      (paperDesks id).CommuteAt (c.perform PaperAdapter.exchange.failing)
        (c'.perform PaperAdapter.exchange.failing) d := by
  refine symbols_independent ?_ ?_ rfl (Parts.same_refl _ _ _)
  all_goals
    intro t ht
    obtain rfl := List.mem_singleton.mp ht
    exact fun _ => rfl

end FuturesBot
