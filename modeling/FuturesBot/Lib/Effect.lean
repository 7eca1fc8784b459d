import Mathlib.Data.Option.Basic

namespace Lib

/-- A computation that may raise. The state that it leaves is kept in both cases. -/
def Eff (σ : Type u) (ε : Type v) (α : Type w) := σ → Except ε α × σ

namespace Eff

variable {σ : Type u} {ε : Type v} {α β : Type w}

protected def pure (a : α) : Eff σ ε α := fun s => (.ok a, s)

protected def bind (x : Eff σ ε α) (f : α → Eff σ ε β) : Eff σ ε β := fun s =>
  match x s with
  | (.ok a, s) => f a s
  | (.error e, s) => (.error e, s)

instance : Monad (Eff σ ε) where
  pure := Eff.pure
  bind := Eff.bind

def throw (e : ε) : Eff σ ε α := fun s => (.error e, s)

/-- Goes on with the handler from where the error has left the state. -/
def tryCatch (x : Eff σ ε α) (handler : ε → Eff σ ε α) : Eff σ ε α := fun s =>
  match x s with
  | (.ok a, s) => (.ok a, s)
  | (.error e, s) => handler e s

instance : MonadExcept ε (Eff σ ε) where
  throw := Eff.throw
  tryCatch := Eff.tryCatch

def get : Eff σ ε σ := fun s => (.ok s, s)

def modify (f : σ → σ) : Eff σ ε PUnit := fun s => (.ok ⟨⟩, f s)

/-- A value or error that the state has no part in. -/
def ofExcept (r : Except ε α) : Eff σ ε α := fun s => (r, s)

theorem bind_ok {x : Eff σ ε α} {f : α → Eff σ ε β} (h : x s = (.ok a, s')) :
    (x >>= f) s = f a s' := by
  change Eff.bind x f s = _
  rw [Eff.bind, h]

theorem bind_error {x : Eff σ ε α} {f : α → Eff σ ε β} (h : x s = (.error e, s')) :
    (x >>= f) s = (.error e, s') := by
  change Eff.bind x f s = _
  rw [Eff.bind, h]

theorem tryCatch_ok {x : Eff σ ε α} {handler : ε → Eff σ ε α} (h : x s = (.ok a, s')) :
    (MonadExcept.tryCatch x handler) s = (.ok a, s') := by
  change Eff.tryCatch x handler s = _
  rw [Eff.tryCatch, h]

theorem tryCatch_error {x : Eff σ ε α} {handler : ε → Eff σ ε α} (h : x s = (.error e, s')) :
    (MonadExcept.tryCatch x handler) s = handler e s' := by
  change Eff.tryCatch x handler s = _
  rw [Eff.tryCatch, h]

instance : LawfulMonad (Eff σ ε) := .mk' _
  (by
    intro α x
    funext s
    change Eff.bind x Eff.pure s = _
    rw [Eff.bind]
    rcases x s with ⟨e | a, s'⟩ <;> rfl)
  (fun _ _ => rfl)
  (by
    intro α β γ x f g
    funext s
    rcases h : x s with ⟨e | a, s'⟩
    · rw [bind_error h, bind_error (bind_error h)]
    · rw [bind_ok h]
      exact congrArg (fun r => Eff.bind (fun _ => r) g s) (bind_ok h))

/-- The error that a result is. -/
def raised : Except ε α → Option ε
  | .ok _ => none
  | .error e => some e

theorem error_of_raised {r : Except ε α} (h : raised r = some e) : r = .error e := by
  cases r with
  | ok a => cases h
  | error e' => exact congrArg Except.error (Option.some.inj h)

/-- Whatever the computation comes to, it keeps a property of the state. -/
def Keeps (P : σ → Prop) (x : Eff σ ε α) : Prop := ∀ s, P s → P (x s).2

namespace Keeps

variable {P : σ → Prop}

theorem pure (a : α) : Keeps P (Pure.pure a : Eff σ ε α) := fun _ hs => hs

theorem throw (e : ε) : Keeps P (MonadExcept.throw e : Eff σ ε α) := fun _ hs => hs

theorem get : Keeps P (Eff.get : Eff σ ε σ) := fun _ hs => hs

theorem ofExcept (r : Except ε α) : Keeps P (Eff.ofExcept r : Eff σ ε α) := fun _ hs => hs

theorem modify {f : σ → σ} (h : ∀ s, P s → P (f s)) : Keeps P (Eff.modify f : Eff σ ε PUnit) := h

theorem bind {x : Eff σ ε α} {f : α → Eff σ ε β} (hx : Keeps P x) (hf : ∀ a, Keeps P (f a)) :
    Keeps P (x >>= f) := by
  intro s hs
  have hrest := hx s hs
  rcases hr : x s with ⟨e | a, s'⟩
  · rw [bind_error hr]
    rw [hr] at hrest
    exact hrest
  · rw [bind_ok hr]
    rw [hr] at hrest
    exact hf a s' hrest

theorem tryCatch {x : Eff σ ε α} {handler : ε → Eff σ ε α} (hx : Keeps P x)
    (hhandler : ∀ e, Keeps P (handler e)) : Keeps P (MonadExcept.tryCatch x handler) := by
  intro s hs
  have hrest := hx s hs
  rcases hr : x s with ⟨e | a, s'⟩
  · rw [tryCatch_error hr]
    rw [hr] at hrest
    exact hhandler e s' hrest
  · rw [tryCatch_ok hr]
    rw [hr] at hrest
    exact hrest

theorem ite {p : Prop} [Decidable p] {x y : Eff σ ε α} (hx : Keeps P x) (hy : Keeps P y) :
    Keeps P (if p then x else y) := by
  split
  · exact hx
  · exact hy

end Keeps

end Eff

end Lib
