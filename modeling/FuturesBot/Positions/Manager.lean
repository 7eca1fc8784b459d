import FuturesBot.Exchange.Adapter
import FuturesBot.Positions.Trailing
import FuturesBot.Lib.Dict
import Mathlib.Data.Finset.Insert
import Mathlib.Data.Option.NAry

namespace FuturesBot
open Lib

/-- The exits of the open positions, in memory only. `invalidationEvents` is what
the event callback has been handed; a callback that raises is logged and ignored.
Each configuration is filed under its own symbol. -/
structure PositionManager where
  configs : Dict Symbol PositionConfig := .empty
  highWater : Dict Symbol Amount := .empty
  trailingStop : Dict Symbol Amount := .empty
  effectiveSl : Dict Symbol (Option Amount) := .empty
  effectiveTp : Dict Symbol (Option Amount) := .empty
  remainingTpLevels : Dict Symbol (List TakeProfitLevel) := .empty
  smoothedAtr : Dict Symbol Amount := .empty
  autoInvalidationFired : Finset Symbol := ∅
  atrUnavailWarnedAt : Dict Symbol Seconds := .empty
  invalidationEvents : List InvalidationEvent := []
  configs_symbol : ∀ s c, configs.get s = some c → c.symbol = s := by simp

namespace PositionManager

/-- A manager that watches nothing yet. -/
def idle : PositionManager := {}

/-- Registers or replaces the exits of a symbol; everything tracked so far for it
starts over. -/
def setConfig (config : PositionConfig) (m : PositionManager) : PositionManager where
  configs := m.configs.set config.symbol config
  effectiveSl := m.effectiveSl.set config.symbol config.stopLoss
  effectiveTp := m.effectiveTp.set config.symbol config.takeProfit
  remainingTpLevels := m.remainingTpLevels.set config.symbol config.takeProfitLevels
  highWater := m.highWater.pop config.symbol
  trailingStop := m.trailingStop.pop config.symbol
  smoothedAtr := m.smoothedAtr.pop config.symbol
  autoInvalidationFired := m.autoInvalidationFired.erase config.symbol
  atrUnavailWarnedAt := m.atrUnavailWarnedAt.pop config.symbol
  invalidationEvents := m.invalidationEvents
  configs_symbol := by
    intro s c h
    rw [Dict.get_set] at h
    split at h
    · rename_i hs
      cases h
      exact hs.symm
    · exact m.configs_symbol s c h

def getConfig (symbol : Symbol) (m : PositionManager) : Option PositionConfig :=
  m.configs.get symbol

def configuredSymbols (m : PositionManager) : List Symbol := m.configs.keys

def getEffectiveSl (symbol : Symbol) (m : PositionManager) : Option Amount :=
  (m.effectiveSl.get symbol).join

def getEffectiveTp (symbol : Symbol) (m : PositionManager) : Option Amount :=
  (m.effectiveTp.get symbol).join

def getRemainingTpLevels (symbol : Symbol) (m : PositionManager) : List TakeProfitLevel :=
  (m.remainingTpLevels.get symbol).getD []

def removeConfig (symbol : Symbol) (m : PositionManager) : PositionManager where
  configs := m.configs.pop symbol
  highWater := m.highWater.pop symbol
  trailingStop := m.trailingStop.pop symbol
  smoothedAtr := m.smoothedAtr.pop symbol
  effectiveSl := m.effectiveSl.pop symbol
  effectiveTp := m.effectiveTp.pop symbol
  remainingTpLevels := m.remainingTpLevels.pop symbol
  autoInvalidationFired := m.autoInvalidationFired.erase symbol
  atrUnavailWarnedAt := m.atrUnavailWarnedAt.pop symbol
  invalidationEvents := m.invalidationEvents
  configs_symbol := by
    intro s c h
    rw [Dict.get_pop] at h
    split at h
    · cases h
    · exact m.configs_symbol s c h

/-- Moves the stop without touching trailing or break-even. -/
def updateSl (symbol : Symbol) (newSl : Amount) : Call PositionManager Unit := fun m =>
  if (m.configs.get symbol).isNone then (.error (.keyError symbol), m)
  else (.ok (), { m with effectiveSl := m.effectiveSl.set symbol (some newSl) })

/-- Any pending level is discarded: the symbol goes back to a single target. -/
def updateTp (symbol : Symbol) (newTp : Amount) : Call PositionManager Unit := fun m =>
  if (m.configs.get symbol).isNone then (.error (.keyError symbol), m)
  else (.ok (), { m with
    remainingTpLevels := m.remainingTpLevels.set symbol []
    effectiveTp := m.effectiveTp.set symbol (some newTp) })

/-- Exponential smoothing of the live ATR; without a reading the last smoothed
value, or the seed of the configuration, is kept. -/
def updateSmoothedAtr (symbol : Symbol) (config : PositionConfig) (atr : Option Amount)
    (m : PositionManager) : Option Amount × PositionManager :=
  let prev := (m.smoothedAtr.get symbol).or config.trailingAtr
  match atr with
  | none => (prev, m)
  | some atr =>
    let alpha := config.trailingAtrSmoothingAlpha.getD 1
    let smoothed := match prev with
      | some prev => alpha * atr + (1 - alpha) * prev
      | none => atr
    (some smoothed, { m with smoothedAtr := m.smoothedAtr.set symbol smoothed })

def atrWarnThrottleSecs : Seconds := 60

/-- A missing ATR is warned of again once the last warning is old enough. -/
def warnAtrUnavailable (symbol : Symbol) (now : Seconds) (m : PositionManager) : PositionManager :=
  if ∀ last ∈ m.atrUnavailWarnedAt.get symbol, atrWarnThrottleSecs ≤ now - last then
    { m with atrUnavailWarnedAt := m.atrUnavailWarnedAt.set symbol now }
  else m

/-- The trailing part of a tick: the stop it yields, if the mode has a distance.
A non-positive live ATR counts as missing. -/
def updateTrailing (symbol : Symbol) (config : PositionConfig) (side : OrderSide)
    (markPrice : Amount) (atr : Option Amount) (now : Seconds) :
    Call PositionManager (Option Amount) := fun m =>
  match config.resolvedTrailingMode with
  | none => (.ok none, m)
  | some mode =>
    let hw := updateHighWater side markPrice (m.highWater.get symbol)
    let (atrValue, m) :=
      if mode = .atr ∧ config.trailingAtrDynamic then
        m.updateSmoothedAtr symbol config (atr.filter (fun a => 0 < a))
      else (config.trailingAtr, m)
    let m := { m with highWater := m.highWater.set symbol hw }
    if atrValue.isNone ∧ mode = .atr then (.ok none, m.warnAtrUnavailable symbol now)
    else match resolveTrailingDelta mode hw config.trailingDelta config.trailingPercent atrValue
        config.trailingAtrMultiplier with
      | .error e => (.error e, m)
      | .ok delta =>
        let stop := trailingStopFromDelta side hw delta
        (.ok (some stop), { m with trailingStop := m.trailingStop.set symbol stop })

def updateBreakEven (symbol : Symbol) (config : PositionConfig) (position : PositionState)
    (markPrice : Amount) (m : PositionManager) : PositionManager :=
  match config.beTriggerDelta with
  | none => m
  | some delta =>
    match maybeMoveToBreakEven position.side position.entryPrice markPrice delta
        (m.getEffectiveSl symbol) config.beSlOffset with
    | none => m
    | some newSl => { m with effectiveSl := m.effectiveSl.set symbol (some newSl) }

end PositionManager

/-- What a tick decides to do. A level carries those that come after it. -/
inductive ExitTrigger
  | stopLoss
  | invalidation (action : InvalidationAction)
  | takeProfitLevel (level : TakeProfitLevel) (later : List TakeProfitLevel)
  | takeProfit
  | trailingStop

namespace ExitTrigger

/-- The branches that forget the symbol, whatever its close order did. -/
def closesFully : ExitTrigger → Bool
  | stopLoss | takeProfit | trailingStop => true
  | invalidation action => 1 ≤ action.closeFraction
  | takeProfitLevel _ later => later.isEmpty

/-- How much of the open quantity the close order asks for. -/
def fraction : ExitTrigger → Amount
  | stopLoss | takeProfit | trailingStop => 1
  | invalidation action => action.closeFraction
  | takeProfitLevel level _ => level.closeFraction

end ExitTrigger

namespace PositionManager

def dueStopLoss (symbol : Symbol) (side : OrderSide) (markPrice : Amount) (m : PositionManager) :
    Option ExitTrigger :=
  match m.getEffectiveSl symbol with
  | some sl => if stopCrossed side markPrice sl then some .stopLoss else none
  | none => none

/-- Not again once it has fired, so that a price that stays beyond the level does
not repeat the action every tick. -/
def dueInvalidation (symbol : Symbol) (config : PositionConfig) (side : OrderSide)
    (markPrice : Amount) (m : PositionManager) : Option ExitTrigger :=
  match config.invalidationPrice, config.invalidationAction with
  | some price, some action =>
    if symbol ∉ m.autoInvalidationFired ∧ stopCrossed side markPrice price then
      some (.invalidation action)
    else none
  | _, _ => none

/-- While levels remain only the first is looked at, and the single target is not. -/
def dueTakeProfit (symbol : Symbol) (side : OrderSide) (markPrice : Amount) (m : PositionManager) :
    Option ExitTrigger :=
  match m.getRemainingTpLevels symbol with
  | level :: later =>
    if targetReached side markPrice level.price then some (.takeProfitLevel level later) else none
  | [] =>
    match m.getEffectiveTp symbol with
    | some tp => if targetReached side markPrice tp then some .takeProfit else none
    | none => none

def dueTrailing (side : OrderSide) (markPrice : Amount) (trailingStopPrice : Option Amount) :
    Option ExitTrigger :=
  match trailingStopPrice with
  | some stop => if isTrailingStopHit side markPrice stop then some .trailingStop else none
  | none => none

/-- The first trigger that is due, in the order the tick evaluates them. -/
def dueTrigger (symbol : Symbol) (config : PositionConfig) (side : OrderSide) (markPrice : Amount)
    (trailingStopPrice : Option Amount) (m : PositionManager) : Option ExitTrigger :=
  m.dueStopLoss symbol side markPrice <|> m.dueInvalidation symbol config side markPrice <|>
    m.dueTakeProfit symbol side markPrice <|> dueTrailing side markPrice trailingStopPrice

end PositionManager

/-- A manager together with the exchange it closes positions on. -/
structure Desk (σ : Type u) where
  manager : PositionManager
  exchange : σ

namespace PositionManager

/-- A crossed or non-positive book is dropped, and the close fills at the mark. -/
def usableBook (book : Option (Amount × Amount)) : Option (Amount × Amount) :=
  book.filter (fun b => ¬(b.1 ≤ 0 ∨ b.2 ≤ 0 ∨ b.2 ≤ b.1))

def closeSide : OrderSide → OrderSide
  | .buy => .sell
  | .sell => .buy

def closeOrderFields (symbol : Symbol) (quantity markPrice : Amount) (side : OrderSide)
    (book : Option (Amount × Amount)) (orderId : ClientOrderId) : OrderRequestFields where
  clientOrderId := orderId
  symbol := symbol
  side := closeSide side
  orderType := .market
  quantity := quantity
  price := some markPrice
  bid := (usableBook book).map (·.1)
  ask := (usableBook book).map (·.2)
  isReduceOnly := true

/-- The reduce-only market order of every close. `orderId` is the fresh UUID it
draws; the result of the order is not looked at. -/
def placeCloseOrder (A : ExchangeAdapter σ) (symbol : Symbol) (quantity markPrice : Amount)
    (side : OrderSide) (book : Option (Amount × Amount)) (orderId : ClientOrderId) :
    Call σ ClientOrderId := fun x =>
  match OrderRequest.build (closeOrderFields symbol quantity markPrice side book orderId) with
  | .error e => (.error e, x)
  | .ok request =>
    match A.placeOrder request x with
    | (.error e, x) => (.error e, x)
    | (.ok _, x) => (.ok orderId, x)

/-- A full close by stop, single target or trailing. The configuration goes also
when the order raises. -/
def closeWhole (A : ExchangeAdapter σ) (trigger : PositionTriggerReason) (symbol : Symbol)
    (position : PositionState) (markPrice : Amount) (book : Option (Amount × Amount))
    (orderId : ClientOrderId) : Call (Desk σ) TickResult := fun d =>
  let (r, x) := placeCloseOrder A symbol position.quantity markPrice position.side book orderId
    d.exchange
  let d := { manager := d.manager.removeConfig symbol, exchange := x }
  match r with
  | .error e => (.error e, d)
  | .ok id =>
    (.ok { symbol := symbol, trigger := trigger, markPrice := markPrice,
           closeOrderId := some id }, d)

/-- The tail of an invalidation, once its close, if any, has gone through. -/
def settleInvalidation (symbol : Symbol) (markPrice : Amount) (action : InvalidationAction)
    (oldSl : Option Amount) (closeOrderId : Option ClientOrderId) (m : PositionManager) :
    TickResult × PositionManager :=
  let closedFraction := if 0 < action.closeFraction then some action.closeFraction else none
  let newSl := if (m.configs.get symbol).isSome then action.newSl else none
  let m := match newSl with
    | some sl => { m with effectiveSl := m.effectiveSl.set symbol (some sl) }
    | none => m
  let event : InvalidationEvent :=
    { symbol := symbol, markPrice := markPrice, oldSl := oldSl, newSl := newSl,
      closedFraction := closedFraction, closeOrderId := closeOrderId }
  ({ symbol := symbol, trigger := .setupInvalidated, markPrice := markPrice,
     closeOrderId := closeOrderId, closedFraction := closedFraction },
   { m with invalidationEvents := m.invalidationEvents ++ [event] })

def applyInvalidationAction (A : ExchangeAdapter σ) (symbol : Symbol) (markPrice : Amount)
    (action : InvalidationAction) (position : PositionState) (book : Option (Amount × Amount))
    (orderId : ClientOrderId) : Call (Desk σ) TickResult := fun d =>
  let oldSl := d.manager.getEffectiveSl symbol
  if 0 < action.closeFraction then
    let (r, x) := placeCloseOrder A symbol (position.quantity * action.closeFraction) markPrice
      position.side book orderId d.exchange
    let m := if 1 ≤ action.closeFraction then d.manager.removeConfig symbol else d.manager
    match r with
    | .error e => (.error e, { manager := m, exchange := x })
    | .ok id =>
      let (result, m) := m.settleInvalidation symbol markPrice action oldSl (some id)
      (.ok result, { manager := m, exchange := x })
  else
    let (result, m) := d.manager.settleInvalidation symbol markPrice action oldSl none
    (.ok result, { d with manager := m })

/-- The manual invalidation, which a caller may repeat at will. -/
def triggerSetupInvalidation (A : ExchangeAdapter σ) (symbol : Symbol) (markPrice : Amount)
    (book : Option (Amount × Amount)) (orderId : ClientOrderId) :
    Call (Desk σ) (Option TickResult) := fun d =>
  match (d.manager.configs.get symbol).bind (·.invalidationAction) with
  | none => (.ok none, d)
  | some action =>
    match A.getPosition symbol d.exchange with
    | (.error e, x) => (.error e, { d with exchange := x })
    | (.ok none, x) => (.ok none, { d with exchange := x })
    | (.ok (some position), x) =>
      match applyInvalidationAction A symbol markPrice action position book orderId
          { d with exchange := x } with
      | (.error e, d) => (.error e, d)
      | (.ok result, d) => (.ok (some result), d)

/-- Consumes a level. The last one forgets the symbol even when its order raises;
an earlier one is kept for the next tick in that case. -/
def closeLevel (A : ExchangeAdapter σ) (symbol : Symbol) (config : PositionConfig)
    (position : PositionState) (markPrice : Amount) (book : Option (Amount × Amount))
    (orderId : ClientOrderId) (level : TakeProfitLevel) (later : List TakeProfitLevel) :
    Call (Desk σ) TickResult := fun d =>
  let tpIdx := config.takeProfitLevels.length - (level :: later).length
  let isLastLevel := later.isEmpty
  let (r, x) := placeCloseOrder A symbol (position.quantity * level.closeFraction) markPrice
    position.side book orderId d.exchange
  let m := if isLastLevel then d.manager.removeConfig symbol else d.manager
  match r with
  | .error e => (.error e, { manager := m, exchange := x })
  | .ok id =>
    let m := if isLastLevel then m
      else { m with remainingTpLevels := m.remainingTpLevels.set symbol later }
    (.ok { symbol := symbol, trigger := if isLastLevel then .tpHit else .tpPartial,
           markPrice := markPrice, closeOrderId := some id, tpLevelIndex := some tpIdx,
           closedFraction := some level.closeFraction },
      { manager := m, exchange := x })

/-- The automatic invalidation counts as fired only once its action went through
and while the symbol is still configured. -/
def invalidateOnce (A : ExchangeAdapter σ) (symbol : Symbol) (markPrice : Amount)
    (action : InvalidationAction) (position : PositionState) (book : Option (Amount × Amount))
    (orderId : ClientOrderId) : Call (Desk σ) TickResult := fun d =>
  match applyInvalidationAction A symbol markPrice action position book orderId d with
  | (.error e, d) => (.error e, d)
  | (.ok result, d) =>
    (.ok result,
      if (d.manager.configs.get symbol).isSome then
        { d with manager := { d.manager with
          autoInvalidationFired := insert symbol d.manager.autoInvalidationFired } }
      else d)

def fire (A : ExchangeAdapter σ) (symbol : Symbol) (config : PositionConfig)
    (position : PositionState) (markPrice : Amount) (book : Option (Amount × Amount))
    (orderId : ClientOrderId) : ExitTrigger → Call (Desk σ) TickResult
  | .stopLoss => closeWhole A .slHit symbol position markPrice book orderId
  | .invalidation action => invalidateOnce A symbol markPrice action position book orderId
  | .takeProfitLevel level later =>
    closeLevel A symbol config position markPrice book orderId level later
  | .takeProfit => closeWhole A .tpHit symbol position markPrice book orderId
  | .trailingStop => closeWhole A .trailingSlHit symbol position markPrice book orderId

/-- One evaluation of a symbol at a mark price. A configuration whose position is
gone is dropped. `now` is what the monotonic clock would show. -/
def tick (A : ExchangeAdapter σ) (symbol : Symbol) (markPrice : Amount) (atr : Option Amount)
    (book : Option (Amount × Amount)) (orderId : ClientOrderId) (now : Seconds) :
    Call (Desk σ) TickResult := fun d =>
  match A.getPosition symbol d.exchange with
  | (.error e, x) => (.error e, { d with exchange := x })
  | (.ok none, x) =>
    let m := if (d.manager.configs.get symbol).isSome then d.manager.removeConfig symbol
      else d.manager
    (.ok (.idle symbol markPrice), { manager := m, exchange := x })
  | (.ok (some position), x) =>
    match d.manager.configs.get symbol with
    | none => (.ok (.idle symbol markPrice), { d with exchange := x })
    | some config =>
      match d.manager.updateTrailing symbol config position.side markPrice atr now with
      | (.error e, m) => (.error e, { manager := m, exchange := x })
      | (.ok trailingStopPrice, m) =>
        let m := m.updateBreakEven symbol config position markPrice
        match m.dueTrigger symbol config position.side markPrice trailingStopPrice with
        | none => (.ok (.idle symbol markPrice), { manager := m, exchange := x })
        | some trigger =>
          fire A symbol config position markPrice book orderId trigger
            { manager := m, exchange := x }

end PositionManager

end FuturesBot
