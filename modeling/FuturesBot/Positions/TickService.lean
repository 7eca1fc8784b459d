import FuturesBot.Positions.Tick
import FuturesBot.Lib.Runs

namespace FuturesBot
open Lib PositionManager

/-- What one cycle takes from outside: the price feed, the optional book feed
(one that is not wired answers nothing), the UUIDs its close orders draw and the clock. -/
structure CycleInputs where
  getMarkPrice : Symbol → Except PyError Amount
  getBook : Symbol → Except PyError (Option (Amount × Amount))
  orderId : Symbol → ClientOrderId
  monotonic : Symbol → Seconds

namespace PositionTickService

/-- The book is optional, so its failure does not cost the close. -/
def bookFor (i : CycleInputs) (symbol : Symbol) : Option (Amount × Amount) :=
  match i.getBook symbol with
  | .ok book => book
  | .error _ => none

/-- Files a configuration again if the failed tick left its symbol without one. -/
def reregister (symbol : Symbol) (before : Option PositionConfig) (m : PositionManager) :
    PositionManager :=
  match before with
  | some config => if (m.getConfig symbol).isNone then m.setConfig config else m
  | none => m

/-- One symbol of a cycle; a failure is logged and yields no result. -/
def tickSymbol (A : ExchangeAdapter σ) (i : CycleInputs) (symbol : Symbol) (d : Desk σ) :
    Option TickResult × Desk σ :=
  match i.getMarkPrice symbol with
  | .error _ => (none, d)
  | .ok markPrice =>
    match tick A symbol markPrice none (bookFor i symbol) (i.orderId symbol) (i.monotonic symbol)
        d with
    | (.ok result, d') => (some result, d')
    | (.error _, d') =>
      (none, { d' with manager := reregister symbol (d.manager.getConfig symbol) d'.manager })

def tickSymbols (A : ExchangeAdapter σ) (i : CycleInputs) :
    List Symbol → Desk σ → List TickResult × Desk σ
  | [], d => ([], d)
  | symbol :: symbols, d =>
    let (result, d) := tickSymbol A i symbol d
    let (results, d) := tickSymbols A i symbols d
    (result.toList ++ results, d)

/-- Ticks, one after the other, the symbols configured when the cycle begins. -/
def tickAll (A : ExchangeAdapter σ) (i : CycleInputs) (d : Desk σ) : List TickResult × Desk σ :=
  tickSymbols A i d.manager.configuredSymbols d

end PositionTickService

open PositionTickService

/-- What the symbol's turn in a cycle came to. -/
inductive SymbolOutcome (A : ExchangeAdapter σ) (i : CycleInputs) (s : Symbol) (d : Desk σ) :
    Option TickResult → Desk σ → Prop
  | quiet {o : Option TickResult} {d' : Desk σ}
      (hx : d'.exchange = d.exchange ∨ d'.exchange = (A.getPosition s d.exchange).2)
      (hs : SameExits d.manager d'.manager)
      (ho : o = none ∨ ∃ mark, o = some (TickResult.idle s mark)) : SymbolOutcome A i s d o d'
  | absent {mark : Amount} {d' : Desk σ}
      (hp : A.getPosition s d.exchange = (.ok none, d'.exchange))
      (hm : d'.manager = d.manager.removeConfig s) :
      SymbolOutcome A i s d (some (.idle s mark)) d'
  | refused {p : PositionState} {x : σ} {c : PositionConfig} {mark : Amount}
      {stop : Option Amount} {m : PositionManager} {t : ExitTrigger} {e : PyError} {d' : Desk σ}
      (hp : A.getPosition s d.exchange = (.ok (some p), x))
      (hc : d.manager.configs.get s = some c) (hk : i.getMarkPrice s = .ok mark)
      (ha : Armed s c p mark none (i.monotonic s) d.manager stop m)
      (hd : m.dueTrigger s c p.side mark stop = some t) (hf : 0 < t.fraction)
      (he : exitOrder A s p mark (bookFor i s) (i.orderId s) t x = (.error e, d'.exchange))
      (hm : d'.manager = if t.closesFully then (m.removeConfig s).setConfig c else m) :
      SymbolOutcome A i s d none d'
  | accepted {p : PositionState} {x : σ} {c : PositionConfig} {mark : Amount}
      {stop : Option Amount} {m : PositionManager} {t : ExitTrigger} {r : TickResult} {d' : Desk σ}
      (hp : A.getPosition s d.exchange = (.ok (some p), x))
      (hc : d.manager.configs.get s = some c) (hk : i.getMarkPrice s = .ok mark)
      (ha : Armed s c p mark none (i.monotonic s) d.manager stop m)
      (hd : m.dueTrigger s c p.side mark stop = some t)
      (hf : fire A s c p mark (bookFor i s) (i.orderId s) t ⟨m, x⟩ = (.ok r, d')) :
      SymbolOutcome A i s d (some r) d'

theorem tickSymbol_outcome (h : tickSymbol A i s d = (o, d')) : SymbolOutcome A i s d o d' := by
  unfold tickSymbol at h
  cases hk : i.getMarkPrice s with
  | error e =>
    simp only [hk] at h
    cases h
    exact .quiet (.inl rfl) (.rfl _) (.inl rfl)
  | ok mark =>
    simp only [hk] at h
    rcases ht : tick A s mark none (bookFor i s) (i.orderId s) (i.monotonic s) d with ⟨e | r, d₁⟩
    · simp only [ht] at h
      cases h
      cases tick_outcome ht with
      | unread hp =>
        refine .quiet (.inr (by rw [hp])) ?_ (.inl rfl)
        cases hc : d.manager.configs.get s <;> simp [reregister, getConfig, hc, SameExits.rfl]
      | fired hp hc ha hd hf =>
        obtain ⟨h0, he, hm⟩ := fire_error hf
        refine .refused hp hc hk ha hd h0 he ?_
        simp only [getConfig, hc, reregister, hm]
        split
        · simp
        · rw [ha.exits.configs, hc]
          rfl
    · simp only [ht] at h
      cases h
      cases tick_outcome ht with
      | absent hp =>
        by_cases hc : (d.manager.configs.get s).isSome
        · rw [if_pos hc]
          exact .absent hp rfl
        · rw [if_neg hc]
          exact .quiet (.inr (by rw [hp])) (.rfl _) (.inr ⟨mark, rfl⟩)
      | unconfigured hp _ => exact .quiet (.inr (by rw [hp])) (.rfl _) (.inr ⟨mark, rfl⟩)
      | quiet hp _ ha => exact .quiet (.inr (by rw [hp])) ha.exits (.inr ⟨mark, rfl⟩)
      | fired hp hc ha hd hf => exact .accepted hp hc hk ha hd hf

/-- What every turn of a cycle preserves, the whole cycle preserves. -/
theorem tickSymbols_invariant {I : List Symbol → Desk σ → Prop}
    (hstep : ∀ s ss d o d', I (s :: ss) d → tickSymbol A i s d = (o, d') → I ss d') :
    ∀ ss d, I ss d → I [] (tickSymbols A i ss d).2
  | [], _, h => h
  | s :: ss, d, h =>
    tickSymbols_invariant hstep ss _ (hstep s ss d _ _ h rfl)

end FuturesBot
