import FuturesBot.Exchange.Schemas
import Mathlib.Logic.Function.Basic

namespace FuturesBot

/-- The contract every exchange adapter implements, over its own state `σ`.
Each method may raise, and even a read may leave the state changed. -/
structure ExchangeAdapter (σ : Type u) where
  placeOrder : OrderRequest → Call σ OrderResult
  cancelOrder : ClientOrderId → Call σ Bool
  getOrderStatus : ClientOrderId → Call σ (Option OrderResult)
  getPosition : Symbol → Call σ (Option PositionState)
  getOpenOrders : Symbol → Call σ (List OrderResult)
  getAccountState : Call σ AccountState
  setLeverage : Symbol → ℤ → Call σ Unit
  setMarginType : Symbol → MarginType → Call σ Unit
  getFeeRates : Symbol → Call σ FeeRates

namespace ExchangeAdapter

/-- The same adapter next to a second state, which it leaves alone. -/
def beside (A : ExchangeAdapter σ) (τ : Type v) : ExchangeAdapter (σ × τ) where
  placeOrder req s := let (r, t) := A.placeOrder req s.1; (r, (t, s.2))
  cancelOrder id s := let (r, t) := A.cancelOrder id s.1; (r, (t, s.2))
  getOrderStatus id s := let (r, t) := A.getOrderStatus id s.1; (r, (t, s.2))
  getPosition sym s := let (r, t) := A.getPosition sym s.1; (r, (t, s.2))
  getOpenOrders sym s := let (r, t) := A.getOpenOrders sym s.1; (r, (t, s.2))
  getAccountState s := let (r, t) := A.getAccountState s.1; (r, (t, s.2))
  setLeverage sym n s := let (r, t) := A.setLeverage sym n s.1; (r, (t, s.2))
  setMarginType sym m s := let (r, t) := A.setMarginType sym m s.1; (r, (t, s.2))
  getFeeRates sym s := let (r, t) := A.getFeeRates sym s.1; (r, (t, s.2))

/-- The same adapter behind a transport that refuses some orders. The script
lists, for the next `placeOrder` calls, which ones fail; a refused order has no
effect, and an exhausted script refuses none. -/
def refusing (A : ExchangeAdapter σ) : ExchangeAdapter (σ × List Bool) :=
  { A.beside (List Bool) with
    placeOrder := fun req s =>
      match s.2 with
      | true :: script => (.error (.external "transport"), (s.1, script))
      | script => let (r, t) := A.placeOrder req s.1; (r, (t, script.tail)) }

/-- A call about a symbol fails without effect where the script of the symbol says so. -/
def attempt (symbol : Symbol) (f : Call σ α) : Call (σ × (Symbol → List Bool)) α := fun s =>
  let rest := Function.update s.2 symbol (s.2 symbol).tail
  if (s.2 symbol).head? = some true then (.error (.external "transport"), (s.1, rest))
  else let (r, t) := f s.1; (r, (t, rest))

/-- The same adapter behind a transport that fails for each symbol by its own script, which lists
the calls about the symbol to come. -/
def failing (A : ExchangeAdapter σ) : ExchangeAdapter (σ × (Symbol → List Bool)) :=
  { A.beside (Symbol → List Bool) with
    placeOrder := fun req => attempt req.symbol (A.placeOrder req)
    getPosition := fun sym => attempt sym (A.getPosition sym)
    setLeverage := fun sym n => attempt sym (A.setLeverage sym n) }

/-- The same adapter with a log of the orders it has been asked to place. -/
def logged (A : ExchangeAdapter σ) : ExchangeAdapter (σ × List OrderRequest) :=
  { A.beside (List OrderRequest) with
    placeOrder := fun req s =>
      let (r, t) := A.placeOrder req s.1
      (r, (t, s.2 ++ [req])) }

/-- The same adapter with orders that either return or have no effect. -/
def atomic (A : ExchangeAdapter σ) : ExchangeAdapter σ :=
  { A with
    placeOrder := fun req s =>
      match A.placeOrder req s with
      | (.error e, _) => (.error e, s)
      | (.ok r, t) => (.ok r, t) }

end ExchangeAdapter

/-- What is asked of an exchange whose orders raise without effect or fill whole.
`held` is the open quantity of a symbol, and `fresh` holds of the identifiers no
order has used yet. Reads may raise at any time. -/
structure FillsOrRefuses (A : ExchangeAdapter σ) (held : σ → Symbol → Amount)
    (fresh : σ → ClientOrderId → Prop) : Prop where
  getPosition_held : ∀ s x, held (A.getPosition s x).2 = held x
  getPosition_fresh : ∀ s x oid, fresh x oid → fresh (A.getPosition s x).2 oid
  getPosition_none : ∀ s x, (A.getPosition s x).1 = .ok none → held x s = 0
  getPosition_some : ∀ s x p, (A.getPosition s x).1 = .ok (some p) → held x s = p.quantity
  placeOrder_refused : ∀ req x e, (A.placeOrder req x).1 = .error e →
    held (A.placeOrder req x).2 = held x
  placeOrder_filled : ∀ req x r, fresh x req.clientOrderId → req.orderType = .market →
    req.isReduceOnly → (A.placeOrder req x).1 = .ok r →
    held (A.placeOrder req x).2 =
      Function.update (held x) req.symbol
        (held x req.symbol - min req.quantity (held x req.symbol))
  placeOrder_fresh : ∀ req x oid, fresh x oid → oid ≠ req.clientOrderId →
    fresh (A.placeOrder req x).2 oid

namespace FillsOrRefuses

variable {A : ExchangeAdapter σ} {held : σ → Symbol → Amount} {fresh : σ → ClientOrderId → Prop}

/-- Scripted refusals keep the contract: they are errors without effect. -/
theorem refusing (hA : FillsOrRefuses A held fresh) :
    FillsOrRefuses A.refusing (fun x => held x.1) (fun x => fresh x.1) where
  getPosition_held s x := hA.getPosition_held s x.1
  getPosition_fresh s x := hA.getPosition_fresh s x.1
  getPosition_none s x := hA.getPosition_none s x.1
  getPosition_some s x := hA.getPosition_some s x.1
  placeOrder_refused req x e h := by
    obtain ⟨x, script⟩ := x
    match script with
    | true :: _ => rfl
    | false :: _ => exact hA.placeOrder_refused req x e h
    | [] => exact hA.placeOrder_refused req x e h
  placeOrder_filled req x r hf hm hr h := by
    obtain ⟨x, script⟩ := x
    match script with
    | true :: _ => cases h
    | false :: _ => exact hA.placeOrder_filled req x r hf hm hr h
    | [] => exact hA.placeOrder_filled req x r hf hm hr h
  placeOrder_fresh req x oid hf hn := by
    obtain ⟨x, script⟩ := x
    match script with
    | true :: _ => exact hf
    | false :: _ => exact hA.placeOrder_fresh req x oid hf hn
    | [] => exact hA.placeOrder_fresh req x oid hf hn

end FillsOrRefuses

/-- What the reads of an exchange leave as it is. -/
structure ReadsLeave (A : ExchangeAdapter σ) (view : σ → β) : Prop where
  getPosition : ∀ s x, view (A.getPosition s x).2 = view x
  getOpenOrders : ∀ s x, view (A.getOpenOrders s x).2 = view x
  getAccountState : ∀ x, view (A.getAccountState x).2 = view x
  getFeeRates : ∀ s x, view (A.getFeeRates s x).2 = view x

/-- What the settings of a symbol leave as it is, too. -/
structure Untouched (A : ExchangeAdapter σ) (view : σ → β) : Prop extends ReadsLeave A view where
  setLeverage : ∀ s l x, view (A.setLeverage s l x).2 = view x
  setMarginType : ∀ s m x, view (A.setMarginType s m x).2 = view x

/-- Of what is left as it is, any part is. -/
theorem Untouched.map {A : ExchangeAdapter σ} {view : σ → β} (hA : Untouched A view) (f : β → γ) :
    Untouched A (fun x => f (view x)) where
  getPosition s x := congrArg f (hA.getPosition s x)
  getOpenOrders s x := congrArg f (hA.getOpenOrders s x)
  getAccountState x := congrArg f (hA.getAccountState x)
  getFeeRates s x := congrArg f (hA.getFeeRates s x)
  setLeverage s l x := congrArg f (hA.setLeverage s l x)
  setMarginType s m x := congrArg f (hA.setMarginType s m x)

/-- The log of the orders is touched by orders only. -/
theorem Untouched.logged (A : ExchangeAdapter σ) : Untouched A.logged (·.2) where
  getPosition _ _ := rfl
  getOpenOrders _ _ := rfl
  getAccountState _ := rfl
  getFeeRates _ _ := rfl
  setLeverage _ _ _ := rfl
  setMarginType _ _ _ := rfl

end FuturesBot
