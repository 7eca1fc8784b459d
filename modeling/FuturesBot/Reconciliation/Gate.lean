import FuturesBot.Control.EmergencyStop
import FuturesBot.Market.CycleService
import FuturesBot.Reconciliation.Engine

namespace FuturesBot
open Lib

/-- What the read of `bot_state` comes to: its newest state, or a database error. -/
inductive StateRead
  | failed
  | read (latest : Option String)

/-- What a trigger meets: a database error at its reads, or what they return and
whether its own rows persist. -/
inductive TriggerRead
  | failed
  | view (v : LockedView) (persists : Bool)

/-- The part of a worker that decides on its state: the machine in memory, the rows
of `bot_state` it has committed, and the session. -/
structure Supervisor where
  botState : BotState := .active
  session : Session := {}
  written : List BotStateRow := []

namespace Supervisor

/-- A trigger to SAFE_MODE out of ACTIVE. Its commit and its rollback act on the
whole session; every rejection is logged by the caller. -/
def triggerSafeMode (v : LockedView) (s : Supervisor) : Supervisor :=
  { botState := EmergencyStopService.resynced v .safeMode (some [.active]) s.botState
    session :=
      match EmergencyStopService.admission v .safeMode (some [.active]) with
      | .ok _ => s.session.commit
      | .error _ => s.session.rollback
    written :=
      match EmergencyStopService.admission v .safeMode (some [.active]) with
      | .ok current => s.written ++ [EmergencyStopService.newRow current .safeMode]
      | .error _ => s.written }

/-- The trigger as a check makes it. After a database error the session is rolled
back, and the machine has at most been resynchronised. -/
def attemptSafeMode (v : TriggerRead) (s : Supervisor) : Supervisor :=
  match v with
  | .failed => { s with session := s.session.rollback }
  | .view v persists =>
    match EmergencyStopService.admission v .safeMode (some [.active]), persists with
    | .ok current, false => { s with botState := current, session := s.session.rollback }
    | _, _ => s.triggerSafeMode v

/-- Findings only lead to a trigger while the machine in memory is active. -/
def enforce (findings : Bool) (v : TriggerRead) (s : Supervisor) : Supervisor :=
  if findings ∧ s.botState = .active then s.attemptSafeMode v else s

/-- Takes over the state that was read. One that cannot be resolved, and the lack of
a row, leave the machine alone; so does a failed read, which rolls back the session. -/
def syncStateFromDb (r : StateRead) (s : Supervisor) : Supervisor :=
  match r with
  | .failed => { s with session := s.session.rollback }
  | .read none => s
  | .read (some raw) =>
    match BotState.ofValue raw with
    | none => s
    | some persisted => { s with botState := persisted }

end Supervisor

inductive ConnectionAnomalyReason
  | symbolDataUnavailable | clockSkewExceeded | latencyExceeded
  deriving DecidableEq, Repr

namespace ConnectionHealthMonitor

/-- The anomalies of one symbol: a missing snapshot, or a slow or skewed one. -/
def checkSymbol (c : ConnectionHealthConfig) (snapshots : List MarketSnapshot) (symbol : Symbol) :
    List (Symbol × ConnectionAnomalyReason) :=
  match (snapshots.filter (·.symbol = symbol)).getLast? with
  | none => [(symbol, .symbolDataUnavailable)]
  | some s =>
    (if c.maxClockSkewMs < |s.clockSkewMs| then [(symbol, .clockSkewExceeded)] else []) ++
    (if c.maxLatencyMs < s.latencyMs then [(symbol, .latencyExceeded)] else [])

def checkAll (c : ConnectionHealthConfig) (symbols : List Symbol)
    (snapshots : List MarketSnapshot) : List (Symbol × ConnectionAnomalyReason) :=
  (ReconciliationEngine.sortedSymbols symbols).flatMap (checkSymbol c snapshots)

def checkAndEnforce (c : ConnectionHealthConfig) (symbols : List Symbol)
    (snapshots : List MarketSnapshot) (v : TriggerRead) (s : Supervisor) : Supervisor :=
  s.enforce (checkAll c symbols snapshots ≠ []) v

end ConnectionHealthMonitor

namespace ReconciliationGate

/-- What blocks new entries. An unreadable balance always does. -/
def blockingReasons (c : ReconciliationConfig) (r : ReconciliationReport) : List String :=
  let orphan := (r.orderDiscrepancies.filter (·.discrepancyType = .missingInDb)).length
  let untracked := (r.positionDiscrepancies.filter (·.discrepancyType = .missingInDb)).length
  let unconfirmed :=
    (r.positionDiscrepancies.filter (·.discrepancyType = .missingProtection)).length
  (if r.balanceFetchFailed then ["fallo de lectura de balance de cuenta"] else []) ++
  (if c.blockOnOrphanOrders ∧ orphan ≠ 0 then [s!"{orphan} orden(es) huérfana(s)"] else []) ++
  (if c.blockOnUntrackedPositions ∧ untracked ≠ 0 then
    [s!"{untracked} posición(es) no trackeada(s) en DB"] else []) ++
  (if c.blockOnUnconfirmedProtection ∧ unconfirmed ≠ 0 then
    [s!"{unconfirmed} posición(es) sin protección confirmada"] else [])

/-- Reconciles, unless the configuration has switched it off, and blocks. -/
def runAndEnforce (A : ExchangeAdapter σ) (c : ReconciliationConfig) (symbols : List Symbol)
    (m : PositionManager) (v : TriggerRead) (s : Supervisor) (x : σ) :
    Option ReconciliationReport × Supervisor × σ :=
  if ¬(c.enabled ∧ c.runBeforeNewEntries) then (none, s, x)
  else
    let (report, x) := ReconciliationEngine.reconcile A symbols m s.session.working x
    (some report, s.enforce (blockingReasons c report ≠ []) v, x)

end ReconciliationGate

end FuturesBot
