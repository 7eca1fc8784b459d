import FuturesBot.Control.KillSwitch
import FuturesBot.Control.Restart
import Mathlib.Data.List.MinMax

namespace FuturesBot
open Lib

/-- A row of `bot_state` with the time that its readers order it by. -/
structure StampedRow extends BotStateRow where
  createdAt : Timestamp

/-- The newest row, whatever order the rows are stored in. -/
def BotStateRepository.getLatest (rows : List StampedRow) : Option StampedRow :=
  rows.argmax (·.createdAt)

/-- A request to the kill switch, or one of the two checks of a worker. -/
inductive Trigger
  | killSwitch (request : ℕ)
  | reconciliationGate (worker : ℕ)
  | connectionHealth (worker : ℕ)
  deriving DecidableEq

namespace Trigger

def target : Trigger → BotState
  | .killSwitch _ => .killSwitchTriggered
  | .reconciliationGate _ | .connectionHealth _ => .safeMode

def requireCurrentIn : Trigger → Option (List BotState)
  | .killSwitch _ => none
  | .reconciliationGate _ | .connectionHealth _ => some [.active]

end Trigger

/-- How far the transaction under the lock is. -/
inductive TriggerPhase
  | locked
  | read (current : BotState)
  | inserted (current : BotState) (createdAt : Timestamp)
  | ended

/-- One bot run with the triggers on it. A trigger may have been passed a machine,
which its caller is free to move while the trigger does not run. -/
structure TriggeredRun where
  rows : List StampedRow
  status : RunStatus := .running
  clock : Timestamp
  holder : Option (Trigger × TriggerPhase) := none
  machine : Trigger → Option BotState

namespace TriggeredRun

def latest (s : TriggeredRun) : Option String :=
  (BotStateRepository.getLatest s.rows).map (·.state)

/-- What the rows say to whoever reads them now. -/
def persisted (s : TriggeredRun) : Option BotState := resolvePersistedState s.latest

def view (s : TriggeredRun) : LockedView := ⟨some s.status, s.latest⟩

/-- `force_set` on the machine of a trigger, if it has one. -/
def forceSet (s : TriggeredRun) (t : Trigger) (state : BotState) : Trigger → Option BotState :=
  Function.update s.machine t ((s.machine t).map (fun _ => state))

end TriggeredRun

/-- How a trigger ended that got to know the state of the run. -/
inductive TriggerEvent
  | silent
  | committed (t : Trigger)
  | aborted (t : Trigger) (current : BotState)

open EmergencyStopService in
/-- One step of a trigger. A run is stopped by others, under the same lock. -/
inductive TriggerStep : TriggeredRun → TriggerEvent → TriggeredRun → Prop
  | lockRun {s : TriggeredRun} (t : Trigger) (h : s.holder = none) :
      TriggerStep s .silent { s with holder := some (t, .locked) }
  | refuse {s : TriggeredRun} {t : Trigger} {e : EmergencyStopRejected}
      (h : s.holder = some (t, .locked)) (hr : readUnderLock s.view = .error e) :
      TriggerStep s .silent { s with holder := some (t, .ended) }
  | readState {s : TriggeredRun} {t : Trigger} {current : BotState}
      (h : s.holder = some (t, .locked)) (hr : readUnderLock s.view = .ok current) :
      TriggerStep s .silent
        { s with holder := some (t, .read current), machine := s.forceSet t current }
  | reject {s : TriggeredRun} {t : Trigger} {current : BotState} {e : EmergencyStopRejected}
      (h : s.holder = some (t, .read current))
      (hc : checkTransition current t.target t.requireCurrentIn = .error e) :
      TriggerStep s (.aborted t current) { s with holder := some (t, .ended) }
  | insertRow {s : TriggeredRun} {t : Trigger} {current : BotState} (now : Timestamp)
      (h : s.holder = some (t, .read current))
      (hc : checkTransition current t.target t.requireCurrentIn = .ok ()) (hn : s.clock < now) :
      TriggerStep s .silent { s with holder := some (t, .inserted current now), clock := now }
  | commit {s : TriggeredRun} {t : Trigger} {current : BotState} {createdAt : Timestamp}
      (h : s.holder = some (t, .inserted current createdAt)) :
      TriggerStep s (.committed t)
        { s with
          rows := s.rows ++ [⟨newRow current t.target, createdAt⟩]
          holder := none
          machine := s.forceSet t t.target }
  | commitFails {s : TriggeredRun} {t : Trigger} {current : BotState} {createdAt : Timestamp}
      (h : s.holder = some (t, .inserted current createdAt)) :
      TriggerStep s (.aborted t current) { s with holder := some (t, .ended) }
  -- The rollback of the caller, at once or at the end of its request.
  | rollback {s : TriggeredRun} {t : Trigger} (h : s.holder = some (t, .ended)) :
      TriggerStep s .silent { s with holder := none }
  -- A process that dies leaves the lock to the database.
  | die {s : TriggeredRun} {t : Trigger} {p : TriggerPhase} (h : s.holder = some (t, p)) :
      TriggerStep s .silent { s with holder := none }
  | endRun {s : TriggeredRun} (status : RunStatus) (h : s.holder = none) :
      TriggerStep s .silent { s with status := status }
  | moveMachine {s : TriggeredRun} (t : Trigger) (state : Option BotState)
      (h : ∀ p, s.holder ≠ some (t, p)) :
      TriggerStep s .silent { s with machine := Function.update s.machine t state }

namespace TriggeredRun

/-- A run as it is started: without a row, or with the state of its predecessor. -/
def Started (s : TriggeredRun) : Prop :=
  s.holder = none ∧ (∀ row ∈ s.rows, row.createdAt ≤ s.clock) ∧
  ∃ carried : Option BotState, (∀ c ∈ carried, ¬c.isRunning) ∧
    s.rows.map (·.toBotStateRow) = carriedRows carried

/-- The row continues the history by an allowed transition, and says from where. A
run without a row is active. -/
def Follows (previous : Option StampedRow) (row : StampedRow) : Prop :=
  ∃ current target : BotState, (previous.map (·.state)).getD BotState.active.value = current.value ∧
    row.previousState = some current.value ∧ row.state = target.value ∧
    target ∈ current.allowedTransitions

/-- The machine of a trigger, once it ends, agrees with the history. -/
def Agrees (s : TriggeredRun) : TriggerEvent → Prop
  | .silent => True
  | .committed t => s.persisted = some t.target ∧ ∀ m ∈ s.machine t, m = t.target
  | .aborted t current => s.persisted = some current ∧ ∀ m ∈ s.machine t, m = current

/-- Who may write the states of a run: its start, once, and the triggers. -/
def Admits : Option Trigger → Option StampedRow → StampedRow → Prop
  | none, last, row => last = none ∧ ∃ carried : BotState, ¬carried.isRunning ∧
      row.toBotStateRow = EmergencyStopService.newRow .active carried
  | some t, last, row => ∃ status current,
      EmergencyStopService.admission ⟨status, last.map (·.state)⟩ t.target t.requireCurrentIn =
        .ok current ∧ row.toBotStateRow = EmergencyStopService.newRow current t.target

def log (s : TriggeredRun) : LockedLog (Option Trigger) StampedRow :=
  ⟨s.rows, s.holder.map (fun h => some h.1)⟩

/-- Rows in the order of their times. -/
def Ordered (rows : List StampedRow) : Prop := rows.Pairwise (·.createdAt < ·.createdAt)

/-- The last of the ordered rows is the one that a query finds. -/
theorem getLatest_of_ordered {rows : List StampedRow} (h : Ordered rows) :
    BotStateRepository.getLatest rows = rows.getLast? := by
  rcases rows.eq_nil_or_concat' with rfl | ⟨before, row, rfl⟩
  · rfl
  · obtain ⟨_, _, hlt⟩ := List.pairwise_append.mp h
    rw [List.getLast?_concat, BotStateRepository.getLatest, List.argmax_concat]
    cases hm : before.argmax (·.createdAt) with
    | none => rfl
    | some c =>
      have hc : c.createdAt < row.createdAt := hlt c (List.argmax_mem hm) row (by simp)
      simp [hc]

/-- What the transaction under the lock has seen is still so, as nobody else writes. -/
def Knows (s : TriggeredRun) : Option (Trigger × TriggerPhase) → Prop
  | some (t, .read current) =>
    s.status = .running ∧ s.persisted = some current ∧ ∀ m ∈ s.machine t, m = current
  | some (t, .inserted current createdAt) =>
    s.status = .running ∧ s.persisted = some current ∧ (∀ m ∈ s.machine t, m = current) ∧
    EmergencyStopService.checkTransition current t.target t.requireCurrentIn = .ok () ∧
    createdAt = s.clock ∧ ∀ row ∈ s.rows, row.createdAt < createdAt
  | some (_, .locked) | some (_, .ended) | none => True

structure Inv (s : TriggeredRun) : Prop where
  ordered : Ordered s.rows
  past : ∀ row ∈ s.rows, row.createdAt ≤ s.clock
  knows : s.Knows s.holder

theorem forceSet_self (s : TriggeredRun) (t : Trigger) (state : BotState) :
    ∀ m ∈ s.forceSet t state t, m = state := by
  intro m hm
  rw [forceSet, Function.update_self] at hm
  obtain ⟨_, _, rfl⟩ := Option.mem_map.mp hm
  rfl

theorem Inv.latest (h : Inv s) : s.latest = s.rows.getLast?.map (·.state) := by
  rw [TriggeredRun.latest, getLatest_of_ordered h.ordered]

/-- The row of a commit is admitted after the last one. -/
theorem Inv.admits (h : Inv s) (hh : s.holder = some (t, .inserted current createdAt)) :
    Admits (some t) s.rows.getLast? ⟨EmergencyStopService.newRow current t.target, createdAt⟩ := by
  have hk := h.knows
  rw [hh] at hk
  obtain ⟨hs, hp, _, hc, _⟩ := hk
  rw [persisted, h.latest] at hp
  exact ⟨some s.status, current,
    EmergencyStopService.admission_of_halves (congrArg some hs) hp hc, rfl⟩

/-- A new row at the present moment comes last. -/
theorem Ordered.snoc {rows : List StampedRow} (h : Ordered rows)
    (hlt : ∀ r ∈ rows, r.createdAt < row.createdAt) : Ordered (rows ++ [row]) := by
  refine List.pairwise_append.mpr ⟨h, List.pairwise_singleton _ _, ?_⟩
  intro r hr r' hr'
  rw [List.mem_singleton.mp hr']
  exact hlt r hr

/-- The row that a commit adds is the state that everyone reads from then on. -/
theorem persisted_commit {s s' : TriggeredRun} (h : Ordered s.rows)
    (hlt : ∀ r ∈ s.rows, r.createdAt < createdAt)
    (hs' : s'.rows = s.rows ++ [⟨EmergencyStopService.newRow current target, createdAt⟩]) :
    s'.persisted = some target := by
  have ho : Ordered s'.rows := by
    rw [hs']
    exact h.snoc hlt
  rw [persisted, TriggeredRun.latest, getLatest_of_ordered ho, hs', List.getLast?_concat]
  exact BotState.ofValue_value target

theorem Inv.step (h : Inv s) (hs : TriggerStep s e s') : Inv s' := by
  cases hs with
  | lockRun | refuse | reject | commitFails | rollback | die => exact ⟨h.ordered, h.past, trivial⟩
  | @readState t current hh hr =>
    obtain ⟨hrun, hres⟩ := EmergencyStopService.readUnderLock_ok hr
    exact ⟨h.ordered, h.past, Option.some.inj hrun, hres, s.forceSet_self t current⟩
  | @insertRow t current now hh hc hn =>
    have hk := h.knows
    rw [hh] at hk
    obtain ⟨hrun, hres, hm⟩ := hk
    refine ⟨h.ordered, ?_, hrun, hres, hm, hc, rfl, ?_⟩
    · intro row hrow
      exact le_trans (h.past row hrow) hn.le
    · intro row hrow
      exact lt_of_le_of_lt (h.past row hrow) hn
  | @commit t current createdAt hh =>
    have hk := h.knows
    rw [hh] at hk
    obtain ⟨_, _, _, _, rfl, hlt⟩ := hk
    refine ⟨h.ordered.snoc hlt, ?_, trivial⟩
    intro row hrow
    rcases List.mem_append.mp hrow with hrow | hrow
    · exact h.past row hrow
    · rw [List.mem_singleton.mp hrow]
  | endRun status hh => exact ⟨h.ordered, h.past, by rw [hh]; trivial⟩
  | @moveMachine t state hh =>
    refine ⟨h.ordered, h.past, ?_⟩
    have hk := h.knows
    rcases hd : s.holder with _ | ⟨t', p⟩
    · trivial
    · have hne : t' ≠ t := by
        rintro rfl
        exact hh p hd
      have hsame : Function.update s.machine t state t' = s.machine t' :=
        Function.update_of_ne hne _ _
      rw [hd] at hk
      cases p with
      | locked | ended => trivial
      | read current =>
        obtain ⟨hrun, hres, hm⟩ := hk
        rw [← hsame] at hm
        exact ⟨hrun, hres, hm⟩
      | inserted current createdAt =>
        obtain ⟨hrun, hres, hm, hrest⟩ := hk
        rw [← hsame] at hm
        exact ⟨hrun, hres, hm, hrest⟩

theorem log_holder {s : TriggeredRun} (h : s.holder = some (t, p)) :
    s.log.holder = some (some t) := by
  rw [log, h]
  rfl

/-- A trigger that keeps the lock has not written yet. -/
theorem log_of_held {s s' : TriggeredRun} (h : s.holder = some (t, p))
    (h' : s'.holder = some (t, p')) (hrows : s'.rows = s.rows) :
    LockedLog.Step Admits s.log s'.log := by
  have he : s'.log = s.log := by simp [log, h, h', hrows]
  rw [he]
  exact .idle s.log

/-- The triggers of a run write a log under a lock. -/
theorem Inv.step_log (h : Inv s) (hs : TriggerStep s e s') :
    LockedLog.Step Admits s.log s'.log := by
  cases hs with
  | lockRun t hh =>
    have hfree : s.log.holder = none := by rw [log, hh]; rfl
    exact .acquire (some t) hfree
  | refuse hh | readState hh | reject hh | insertRow _ hh | commitFails hh =>
    exact log_of_held hh rfl rfl
  | commit hh => exact .append (log_holder hh) (h.admits hh)
  | rollback hh | die hh => exact .release (log_holder hh)
  | endRun | moveMachine => exact .idle s.log

/-- A trigger that ends leaves its machine and the history in agreement. -/
theorem Inv.agrees (h : Inv s) (hs : TriggerStep s e s') : s'.Agrees e := by
  cases hs with
  | reject hh =>
    have hk := h.knows
    rw [hh] at hk
    exact ⟨hk.2.1, hk.2.2⟩
  | commitFails hh =>
    have hk := h.knows
    rw [hh] at hk
    exact ⟨hk.2.1, hk.2.2.1⟩
  | @commit t current createdAt hh =>
    have hk := h.knows
    rw [hh] at hk
    exact ⟨persisted_commit h.ordered hk.2.2.2.2.2 rfl, s.forceSet_self t t.target⟩
  | _ => trivial

/-- Nobody leaves the triggered kill switch. -/
theorem kill_final : LockedLog.Final Admits (System.IsKill ·.toBotStateRow) := by
  intro i row row' hk ha
  have hres : resolvePersistedState (some row.state) = some .killSwitchTriggered := by
    rw [hk]
    exact BotState.ofValue_value _
  cases i with
  | none =>
    obtain ⟨hnone, _⟩ := ha
    cases hnone
  | some t =>
    obtain ⟨status, current, hadm, _⟩ := ha
    obtain ⟨_, hc, hreq, ht⟩ := EmergencyStopService.admission_ok hadm
    cases hres.symm.trans hc
    cases t with
    | killSwitch request =>
      simp [Trigger.target, BotState.canTransitionTo, BotState.allowedTransitions] at ht
    | reconciliationGate | connectionHealth =>
      have hactive := hreq _ rfl
      simp at hactive

/-- What the lock lets in continues the history. -/
theorem follows_of_admits (h : Admits i previous row) : Follows previous row := by
  cases i with
  | none =>
    obtain ⟨rfl, carried, hstop, hrow⟩ := h
    refine ⟨.active, carried, rfl, by rw [hrow]; rfl, by rw [hrow]; rfl, ?_⟩
    cases carried with
    | halted | killSwitchTriggered => decide
    | active | safeMode | manualPaused => exact absurd rfl hstop
  | some t =>
    obtain ⟨status, current, hadm, hrow⟩ := h
    obtain ⟨_, hc, _, ht⟩ := EmergencyStopService.admission_ok hadm
    refine ⟨current, t.target, ?_, by rw [hrow]; rfl, by rw [hrow]; rfl, by
      simpa [BotState.canTransitionTo] using ht⟩
    cases previous with
    | none =>
      cases hc
      rfl
    | some p => exact BotState.value_of_ofValue hc

theorem Started.inv (h : Started s) : Inv s := by
  obtain ⟨hfree, hpast, carried, _, hrows⟩ := h
  refine ⟨?_, hpast, by rw [hfree]; trivial⟩
  have hlen := congrArg List.length hrows
  rw [List.length_map] at hlen
  rcases hl : s.rows with _ | ⟨row, _ | ⟨row', rest⟩⟩
  · exact List.Pairwise.nil
  · exact List.pairwise_singleton _ _
  · rw [hl] at hlen
    cases carried <;> simp [carriedRows] at hlen

theorem Started.admitted (h : Started s) : LockedLog.Admitted Admits s.rows := by
  obtain ⟨_, _, carried, hstop, hrows⟩ := h
  cases carried with
  | none =>
    rw [List.map_eq_nil_iff.mp hrows]
    exact EachAfter.nil
  | some c =>
    obtain ⟨row, hrow, he⟩ := List.map_eq_singleton_iff.mp hrows
    rw [hrow]
    exact EachAfter.nil.snoc ⟨none, rfl, c, hstop c rfl, he⟩

/-- However the triggers on a run interleave, its history is a path of allowed
transitions in the order of its times, nothing trades or watches again after the kill
switch, and a trigger that ends leaves its machine in agreement with the history. -/
theorem triggers_keep_history (h₀ : Started s₀) (hr : Run TriggerStep s₀ es s) :
    Ordered s.rows ∧ EachAfter (fun before row => Follows before.getLast? row) s.rows ∧
    EachAfter (fun before row => (∃ k ∈ before, System.IsKill k.toBotStateRow) →
      row.state ≠ BotState.safeMode.value ∧ row.state ≠ BotState.active.value) s.rows ∧
    ∀ e s', TriggerStep s e s' → s'.Agrees e := by
  have hi : Inv s ∧ LockedLog.Admitted Admits s.rows := by
    refine hr.invariant (I := fun s => Inv s ∧ LockedLog.Admitted Admits s.rows)
      ⟨h₀.inv, h₀.admitted⟩ ?_
    intro s e s' hi hs
    have hlog : LockedLog.Step Admits s.log s'.log := hi.1.step_log hs
    exact ⟨hi.1.step hs, hlog.admitted hi.2⟩
  obtain ⟨hinv, hadm⟩ := hi
  refine ⟨hinv.ordered, ?_, ?_, fun e s' hs => hinv.agrees hs⟩
  · intro before row after he
    obtain ⟨i, ha⟩ := hadm before row after he
    exact follows_of_admits ha
  · intro before row after he hk
    obtain ⟨k, hk, hkill⟩ := hk
    exact absurd hkill (hadm.none_after_final kill_final before row after he k hk)

end TriggeredRun

/-- A run that nobody has stopped yet, with workers that take it to be active. -/
def activeRun : TriggeredRun where
  rows := []
  clock := 0
  machine _ := some .active

/-- A trigger that nobody is in the way of gets to read the state. -/
theorem trigger_reads {s : TriggeredRun} (t : Trigger) (h : s.holder = none)
    (hr : EmergencyStopService.readUnderLock s.view = .ok current) :
    Run TriggerStep s [.silent, .silent]
      { s with holder := some (t, .read current), machine := s.forceSet t current } :=
  .cons (.lockRun t h) (.cons (.readState rfl hr) (.nil _))

/-- The connection check and a request come first; the gate still takes the bot to be
active, and learns otherwise under the lock. -/
theorem stale_gate_learns : ∃ s es s', Run TriggerStep activeRun es s ∧
    TriggerStep s (.aborted (.reconciliationGate 0) .killSwitchTriggered) s' ∧
    s'.Agrees (.aborted (.reconciliationGate 0) .killSwitchTriggered) := by
  have hstart : activeRun.Started := ⟨rfl, by simp [activeRun], none, by simp, rfl⟩
  have hsafe := ((trigger_reads (.connectionHealth 0) hstart.1 rfl).snoc
    (.insertRow 1 rfl rfl Nat.zero_lt_one)).snoc (.commit rfl)
  have hkill := ((hsafe.append (trigger_reads (.killSwitch 0) rfl rfl)).snoc
    (.insertRow 2 rfl rfl Nat.one_lt_two)).snoc (.commit rfl)
  have hgate := hkill.append (trigger_reads (.reconciliationGate 0) rfl rfl)
  refine ⟨_, _, _, hgate, .reject rfl rfl, ?_⟩
  exact (TriggeredRun.triggers_keep_history hstart hgate).2.2.2 _ _ (.reject rfl rfl)

end FuturesBot
