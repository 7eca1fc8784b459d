import FuturesBot.Positions.TickService

namespace FuturesBot
open Lib PositionManager PositionTickService

/-- A relation that the exchange stays within, however often positions are read and
reduce-only MARKET orders are sent. -/
structure ExitsStayIn (A : ExchangeAdapter σ) (R : σ → σ → Prop) : Prop where
  refl : ∀ x, R x x
  trans : ∀ x y z, R x y → R y z → R x z
  getPosition : ∀ s x, R x (A.getPosition s x).2
  reduceOnly : ∀ request x, request.orderType = .market → request.isReduceOnly →
    R x (A.placeOrder request x).2

namespace ExitsStayIn

variable {A : ExchangeAdapter σ} {R : σ → σ → Prop}

theorem placeCloseOrder (hR : ExitsStayIn A R)
    (h : placeCloseOrder A s quantity mark side book oid x = (r, x')) : R x x' := by
  unfold PositionManager.placeCloseOrder at h
  split at h
  · cases h
    exact hR.refl x
  · rename_i request hb
    have hf := OrderRequest.build_ok hb
    have hx := hR.reduceOnly request x (by rw [hf]; rfl) (by rw [hf]; rfl)
    split at h
    all_goals
      rename_i ho
      rw [ho] at hx
      cases h
      exact hx

theorem applyInvalidationAction (hR : ExitsStayIn A R)
    (h : applyInvalidationAction A s mark a p book oid d = (r, d')) : R d.exchange d'.exchange := by
  cases r with
  | error e => exact hR.placeCloseOrder (applyInvalidationAction_error h).2.1
  | ok r =>
    have ho := (applyInvalidationAction_ok h).1
    split at ho
    · exact hR.placeCloseOrder ho
    · rw [ho]
      exact hR.refl _

theorem fire (hR : ExitsStayIn A R) (hc : (d.manager.configs.get s).isSome)
    (h : fire A s c p mark book oid t d = (r, d')) : R d.exchange d'.exchange := by
  cases r with
  | error e => exact hR.placeCloseOrder (fire_error h).2.1
  | ok r =>
    have ho := (fire_ok hc h).1
    split at ho
    · exact hR.placeCloseOrder ho
    · rw [ho]
      exact hR.refl _

/-- A tick only reads the position and sends reduce-only orders. -/
theorem tick (hR : ExitsStayIn A R) (h : tick A s mark atr book oid now d = (r, d')) :
    R d.exchange d'.exchange := by
  have hread := hR.getPosition s d.exchange
  cases tick_outcome h with
  | unread hp | absent hp | unconfigured hp | quiet hp =>
    rw [hp] at hread
    exact hread
  | fired hp hc ha hd hf =>
    rw [hp] at hread
    have hfire := hR.fire (ha.exits.configs ▸ Option.isSome_of_eq_some hc) hf
    exact hR.trans _ _ _ hread hfire

/-- So does a call of the manual invalidation. -/
theorem triggerSetupInvalidation (hR : ExitsStayIn A R)
    (h : triggerSetupInvalidation A s mark book oid d = (r, d')) : R d.exchange d'.exchange := by
  unfold PositionManager.triggerSetupInvalidation at h
  have hread := hR.getPosition s d.exchange
  split at h
  · cases h
    exact hR.refl _
  · split at h
    · rename_i hp
      rw [hp] at hread
      cases h
      exact hread
    · rename_i hp
      rw [hp] at hread
      cases h
      exact hread
    · rename_i hp
      rw [hp] at hread
      split at h
      all_goals
        rename_i ha
        cases h
        exact hR.trans _ _ _ hread (hR.applyInvalidationAction ha)

/-- And a turn of the tick service, which adds nothing but registrations. -/
theorem tickSymbol (hR : ExitsStayIn A R) (h : tickSymbol A i s d = (o, d')) :
    R d.exchange d'.exchange := by
  unfold PositionTickService.tickSymbol at h
  split at h
  · cases h
    exact hR.refl _
  · split at h
    all_goals
      rename_i ht
      have hx := hR.tick ht
      cases h
      exact hx

theorem tickSymbols (hR : ExitsStayIn A R) (i : CycleInputs) (ss : List Symbol) (d : Desk σ) :
    R d.exchange (tickSymbols A i ss d).2.exchange :=
  tickSymbols_invariant (I := fun _ d' => R d.exchange d'.exchange)
    (fun _ _ _ _ _ h ht => hR.trans _ _ _ h (hR.tickSymbol ht)) ss d (hR.refl _)

end ExitsStayIn

end FuturesBot
