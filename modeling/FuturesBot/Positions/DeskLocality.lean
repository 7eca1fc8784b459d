import FuturesBot.Exchange.Apart
import FuturesBot.Positions.Locality

namespace FuturesBot
open Lib PositionManager

namespace PositionManager

/-- The part of a tick behind the position and the configuration. -/
def evaluate (A : ExchangeAdapter σ) (s : Symbol) (c : PositionConfig) (p : PositionState)
    (mark : Amount) (atr : Option Amount) (book : Option (Amount × Amount)) (oid : ClientOrderId)
    (now : Seconds) : Call (Desk σ) TickResult := fun d =>
  match d.manager.updateTrailing s c p.side mark atr now with
  | (.error e, m) => (.error e, { d with manager := m })
  | (.ok stop, m) =>
    let m := m.updateBreakEven s c p mark
    match m.dueTrigger s c p.side mark stop with
    | none => (.ok (.idle s mark), { d with manager := m })
    | some t => fire A s c p mark book oid t { d with manager := m }

end PositionManager

/-- The part of a symbol in a desk is what the manager and the exchange know of it. -/
def Desk.parts (B : Parts Symbol σ Amount) : Parts Symbol (Desk σ) Amount where
  same s d d' := PositionManager.SameAt s d.manager d'.manager ∧ B.same s d.exchange d'.exchange
  account d := B.account d.exchange
  equivalence s :=
    ⟨fun d => ⟨.refl s d.manager, B.same_refl s d.exchange⟩,
      fun h => ⟨h.1.symm, Parts.same_symm h.2⟩,
      fun h h' => ⟨h.1.trans h'.1, Parts.same_trans h.2 h'.2⟩⟩

namespace Desk

variable {A : ExchangeAdapter σ} {B : Parts Symbol σ Amount} {owner : ClientOrderId → Symbol}

theorem onManager (B : Parts Symbol σ Amount) {f : PositionManager → ρ × PositionManager}
    (h : PositionManager.parts.LocalAt s f) :
    (parts B).LocalAt s fun d => ((f d.manager).1, { d with manager := (f d.manager).2 }) where
  frame s' hs d := ⟨h.frame s' hs d.manager, B.same_refl s' d.exchange⟩
  own _ _ hd :=
    have hown := h.own _ _ hd.1
    ⟨hown.1, hown.2, hd.2⟩
  adds _ _ _ := by simp [parts]

theorem onExchange {f : σ → ρ × σ} (h : B.LocalAt s f) :
    (parts B).LocalAt s fun d => ((f d.exchange).1, { d with exchange := (f d.exchange).2 }) where
  frame s' hs d := ⟨.refl s' d.manager, h.frame s' hs d.exchange⟩
  own _ _ hd :=
    have hown := h.own _ _ hd.2
    ⟨hown.1, hd.1, hown.2⟩
  adds _ _ hd := h.adds _ _ hd.2

theorem changes (B : Parts Symbol σ Amount) {f : PositionManager → PositionManager}
    (h : PositionManager.ChangesAt s f) (r : ρ) :
    (parts B).LocalAt s fun d => (r, { d with manager := f d.manager }) :=
  onManager B (h.localAt r)

end Desk

namespace KeepsApart

variable {A : ExchangeAdapter σ} {B : Parts Symbol σ Amount} {owner : ClientOrderId → Symbol}
  (hA : KeepsApart A B owner)
include hA

theorem placeCloseOrder (howned : owner oid = s) (quantity mark : Amount) (side : OrderSide)
    (book : Option (Amount × Amount)) :
    B.LocalAt s (PositionManager.placeCloseOrder A s quantity mark side book oid) := by
  unfold PositionManager.placeCloseOrder
  cases hbuild : OrderRequest.build (closeOrderFields s quantity mark side book oid) with
  | error e => exact .pure B s _
  | ok request =>
    have hfields := OrderRequest.build_ok hbuild
    have hsymbol : request.symbol = s := by rw [hfields, closeOrderFields]
    have horder : owner request.clientOrderId = request.symbol := by
      rw [hsymbol, ← howned, hfields, closeOrderFields]
    have hplaced := hA.placeOrder request horder
    rw [hsymbol] at hplaced
    have h := hplaced.bindExcept (fun e => .pure B s (Except.error e)) fun _ =>
      .pure B s (Except.ok oid)
    refine h.congr fun x => ?_
    dsimp only
    rcases A.placeOrder request x with ⟨_ | _, _⟩ <;> rfl

theorem closeWhole (howned : owner oid = s) (reason : PositionTriggerReason) (p : PositionState)
    (mark : Amount) (book : Option (Amount × Amount)) :
    (Desk.parts B).LocalAt s (PositionManager.closeWhole A reason s p mark book oid) := by
  have h := (Desk.onExchange
    (hA.placeCloseOrder howned p.quantity mark p.side book)).bindExcept
    (fun e => Desk.changes B (.removeConfig s) (Except.error e)) fun id =>
    Desk.changes B (.removeConfig s) (Except.ok
      { symbol := s, trigger := reason, markPrice := mark, closeOrderId := some id : TickResult })
  refine h.congr fun d => ?_
  unfold PositionManager.closeWhole
  dsimp only
  rcases PositionManager.placeCloseOrder A s p.quantity mark p.side book oid d.exchange with
    ⟨_ | _, _⟩ <;> rfl

theorem applyInvalidationAction (howned : owner oid = s) (mark : Amount) (a : InvalidationAction)
    (p : PositionState) (book : Option (Amount × Amount)) :
    (Desk.parts B).LocalAt s (PositionManager.applyInvalidationAction A s mark a p book oid) := by
  have hget : ∀ d d', (Desk.parts B).same s d d' →
      d.manager.getEffectiveSl s = d'.manager.getEffectiveSl s := fun _ _ h => h.1.getEffectiveSl
  have hsettled : ∀ oldSl id, (Desk.parts B).LocalAt s fun d =>
      ((.ok (d.manager.settleInvalidation s mark a oldSl id).1 : Except PyError TickResult),
        { d with manager := (d.manager.settleInvalidation s mark a oldSl id).2 }) := by
    intro oldSl id
    have h := (Desk.onManager B (settleInvalidation_local s mark a oldSl id)).bind fun r =>
      .pure _ s (.ok r : Except PyError TickResult)
    exact h
  by_cases hcloses : 0 < a.closeFraction
  · have hdropped : ChangesAt s fun m =>
        if 1 ≤ a.closeFraction then m.removeConfig s else m := by
      split
      · exact .removeConfig s
      · exact .id s
    have hdrop := Desk.changes B hdropped ()
    have h := Parts.LocalAt.read hget fun oldSl => (Desk.onExchange
      (hA.placeCloseOrder howned (p.quantity * a.closeFraction) mark p.side book)).bindExcept
      (fun e => hdrop.bind fun _ => .pure _ s (Except.error e))
      fun id => hdrop.bind fun _ => hsettled oldSl (some id)
    refine h.congr fun d => ?_
    unfold PositionManager.applyInvalidationAction
    simp only [if_pos hcloses]
    rcases PositionManager.placeCloseOrder A s (p.quantity * a.closeFraction) mark p.side book oid
      d.exchange with ⟨_ | _, _⟩ <;> rfl
  · have h := Parts.LocalAt.read hget fun oldSl => hsettled oldSl none
    unfold PositionManager.applyInvalidationAction
    simp only [if_neg hcloses]
    exact h

theorem triggerSetupInvalidation (howned : owner oid = s) (mark : Amount)
    (book : Option (Amount × Amount)) :
    (Desk.parts B).LocalAt s (PositionManager.triggerSetupInvalidation A s mark book oid) := by
  have hget : ∀ d d', (Desk.parts B).same s d d' →
      (d.manager.configs.get s).bind (·.invalidationAction) =
        (d'.manager.configs.get s).bind (·.invalidationAction) :=
    fun _ _ h => congrArg (·.bind (·.invalidationAction)) h.1.config
  have happly := fun action p => (hA.applyInvalidationAction howned mark action p book).bindExcept
    (fun e => .pure _ s (Except.error e)) fun r => .pure _ s (Except.ok (some r))
  have hnothing := Parts.LocalAt.pure (Desk.parts B) s
    (.ok none : Except PyError (Option TickResult))
  have hfound := fun action => (Desk.onExchange (hA.getPosition s)).bindExcept
    (fun e => .pure _ s (Except.error e)) (hnothing.optional (happly action))
  have h := Parts.LocalAt.read hget (hnothing.optional hfound)
  refine h.congr fun d => ?_
  unfold PositionManager.triggerSetupInvalidation
  rcases (d.manager.configs.get s).bind (·.invalidationAction) with _ | action
  · rfl
  · dsimp only [Option.elim]
    rcases A.getPosition s d.exchange with ⟨_ | _ | position, x⟩
    · rfl
    · rfl
    · dsimp only
      rcases PositionManager.applyInvalidationAction A s mark action position book oid
        { d with exchange := x } with ⟨_ | _, _⟩ <;> rfl

theorem closeLevel (howned : owner oid = s) (c : PositionConfig) (p : PositionState)
    (mark : Amount) (book : Option (Amount × Amount)) (level : TakeProfitLevel)
    (later : List TakeProfitLevel) :
    (Desk.parts B).LocalAt s
      (PositionManager.closeLevel A s c p mark book oid level later) := by
  have hplaced := Desk.onExchange
    (hA.placeCloseOrder howned (p.quantity * level.closeFraction) mark p.side book)
  by_cases hlast : later.isEmpty
  · have h := hplaced.bindExcept
      (fun e => Desk.changes B (.removeConfig s) (Except.error e)) fun id =>
      Desk.changes B (.removeConfig s) (Except.ok
        { symbol := s, trigger := .tpHit, markPrice := mark, closeOrderId := some id,
          tpLevelIndex := some (c.takeProfitLevels.length - (level :: later).length),
          closedFraction := some level.closeFraction : TickResult })
    refine h.congr fun d => ?_
    simp only [PositionManager.closeLevel, hlast, if_true]
    rcases PositionManager.placeCloseOrder A s (p.quantity * level.closeFraction) mark p.side
      book oid d.exchange with ⟨_ | _, _⟩ <;> rfl
  · have h := hplaced.bindExcept (fun e => .pure _ s (Except.error e)) fun id =>
      Desk.changes B (.setRemaining s later) (Except.ok
        { symbol := s, trigger := .tpPartial, markPrice := mark, closeOrderId := some id,
          tpLevelIndex := some (c.takeProfitLevels.length - (level :: later).length),
          closedFraction := some level.closeFraction : TickResult })
    refine h.congr fun d => ?_
    simp only [PositionManager.closeLevel, hlast, Bool.false_eq_true, if_false]
    rcases PositionManager.placeCloseOrder A s (p.quantity * level.closeFraction) mark p.side
      book oid d.exchange with ⟨_ | _, _⟩ <;> rfl

theorem invalidateOnce (howned : owner oid = s) (mark : Amount) (a : InvalidationAction)
    (p : PositionState) (book : Option (Amount × Amount)) :
    (Desk.parts B).LocalAt s (PositionManager.invalidateOnce A s mark a p book oid) := by
  have hget : ∀ d d', (Desk.parts B).same s d d' →
      (d.manager.configs.get s).isSome = (d'.manager.configs.get s).isSome :=
    fun _ _ h => congrArg Option.isSome h.1.config
  have hmark : ∀ (r : TickResult) (registered : Bool), (Desk.parts B).LocalAt s fun d =>
      ((.ok r : Except PyError TickResult), if registered then
        { d with manager := { d.manager with
          autoInvalidationFired := insert s d.manager.autoInvalidationFired } }
        else d) := by
    intro r registered
    cases registered with
    | true => exact Desk.changes B (.insertFired s) _
    | false => exact .pure _ s _
  have h := (hA.applyInvalidationAction howned mark a p book).bindExcept
    (fun e => .pure _ s (Except.error e)) fun r => .read hget (hmark r)
  refine h.congr fun d => ?_
  unfold PositionManager.invalidateOnce
  rcases PositionManager.applyInvalidationAction A s mark a p book oid d with ⟨_ | _, _⟩ <;> rfl

theorem fire (howned : owner oid = s) (c : PositionConfig) (p : PositionState) (mark : Amount)
    (book : Option (Amount × Amount)) (t : ExitTrigger) :
    (Desk.parts B).LocalAt s (PositionManager.fire A s c p mark book oid t) := by
  cases t with
  | stopLoss | takeProfit | trailingStop => exact hA.closeWhole howned _ p mark book
  | invalidation action => exact hA.invalidateOnce howned mark action p book
  | takeProfitLevel level later => exact hA.closeLevel howned c p mark book level later

theorem evaluate (howned : owner oid = s) (c : PositionConfig) (p : PositionState) (mark : Amount)
    (atr : Option Amount) (book : Option (Amount × Amount)) (now : Seconds) :
    (Desk.parts B).LocalAt s (PositionManager.evaluate A s c p mark atr book oid now) := by
  have hget : ∀ stop d d', (Desk.parts B).same s d d' →
      d.manager.dueTrigger s c p.side mark stop = d'.manager.dueTrigger s c p.side mark stop :=
    fun stop _ _ h => h.1.dueTrigger c p.side mark stop
  have hidle := Parts.LocalAt.pure (Desk.parts B) s (.ok (.idle s mark) : Except PyError TickResult)
  have hdue := fun stop => Parts.LocalAt.read (hget stop) <|
    hidle.optional fun t => hA.fire howned c p mark book t
  have hmoved := fun stop =>
    (Desk.changes B (updateBreakEven_changes s c p mark) ()).bind fun _ => hdue stop
  have h := (Desk.onManager B (updateTrailing_local s c p.side mark atr now)).bindExcept
    (fun e => .pure _ s (Except.error e)) hmoved
  refine h.congr fun d => ?_
  unfold PositionManager.evaluate
  dsimp only
  rcases d.manager.updateTrailing s c p.side mark atr now with ⟨_ | stop, m⟩
  · rfl
  · dsimp only
    rcases (m.updateBreakEven s c p mark).dueTrigger s c p.side mark stop with _ | _ <;> rfl

theorem tick (howned : owner oid = s) (mark : Amount) (atr : Option Amount)
    (book : Option (Amount × Amount)) (now : Seconds) :
    (Desk.parts B).LocalAt s (PositionManager.tick A s mark atr book oid now) := by
  have hget : ∀ d d', (Desk.parts B).same s d d' →
      (d.manager.configs.get s).isSome = (d'.manager.configs.get s).isSome :=
    fun _ _ h => congrArg Option.isSome h.1.config
  have hsame : ∀ d d', (Desk.parts B).same s d d' →
      d.manager.configs.get s = d'.manager.configs.get s := fun _ _ h => h.1.config
  have hdrop : ∀ registered : Bool, (Desk.parts B).LocalAt s fun d =>
      ((.ok (.idle s mark) : Except PyError TickResult),
        { d with manager := if registered then d.manager.removeConfig s else d.manager }) := by
    intro registered
    cases registered with
    | true => exact Desk.changes B (.removeConfig s) _
    | false => exact .pure _ s _
  have hidle := Parts.LocalAt.pure (Desk.parts B) s (.ok (.idle s mark) : Except PyError TickResult)
  have hconfig := fun p => Parts.LocalAt.read hsame <|
    hidle.optional fun c => hA.evaluate howned c p mark atr book now
  have hmissing := Parts.LocalAt.read hget hdrop
  have h := (Desk.onExchange (hA.getPosition s)).bindExcept
    (fun e => .pure _ s (Except.error e)) (hmissing.optional hconfig)
  refine h.congr fun d => ?_
  unfold PositionManager.tick
  dsimp only
  rcases A.getPosition s d.exchange with ⟨_ | _ | position, x⟩
  · rfl
  · rfl
  · dsimp only [Option.elim]
    rcases d.manager.configs.get s with _ | config <;> rfl

end KeepsApart

end FuturesBot
