import FuturesBot.Control.EmergencyStop
import FuturesBot.Lib.Runs

namespace FuturesBot
open Lib

/-- A row of `bot_runs`, with its rows of `bot_state`. -/
structure BotRun where
  status : RunStatus
  states : List BotStateRow := []

/-- The committed runs `0 … size - 1`, in the order in which they were started. -/
structure RunTable where
  size : ℕ
  run : ℕ → BotRun

namespace RunTable

def getMostRecent (t : RunTable) : Option ℕ := if t.size = 0 then none else some (t.size - 1)

def running (t : RunTable) : List ℕ :=
  (List.range t.size).filter (fun r => (t.run r).status = .running)

def addState (t : RunTable) (r : ℕ) (row : BotStateRow) : RunTable :=
  { t with run := Function.update t.run r { t.run r with states := (t.run r).states ++ [row] } }

/-- What the start of a worker commits: the orphans are closed, and the new run comes
with the state it carries over, if any. -/
def start (t : RunTable) (orphans : List ℕ) (states : List BotStateRow) : RunTable where
  size := t.size + 1
  run r :=
    if r = t.size then ⟨.running, states⟩
    else if r ∈ orphans then { t.run r with status := .crashed }
    else t.run r

/-- Only the newest run may be running: the unique index allows one, and every start
closes the others. -/
def NewestRuns (t : RunTable) : Prop := ∀ r ∈ t.running, r + 1 = t.size

theorem mem_running (t : RunTable) : r ∈ t.running ↔ r < t.size ∧ (t.run r).status = .running := by
  simp [running]

@[simp] theorem addState_size (t : RunTable) (r : ℕ) (row : BotStateRow) :
    (t.addState r row).size = t.size := rfl

@[simp] theorem addState_running (t : RunTable) (r : ℕ) (row : BotStateRow) :
    (t.addState r row).running = t.running := by
  have hs : ∀ r', ((t.addState r row).run r').status = (t.run r').status := by
    intro r'
    unfold addState
    by_cases h : r' = r
    · subst h
      simp
    · simp [h]
  simp only [running, addState_size, hs]

theorem addState_latest (t : RunTable) (r : ℕ) (row : BotStateRow) :
    latestState ((t.addState r row).run r).states = some row.state := by
  simp [addState, latestState]

/-- A start that closes every running run leaves just the new one running. -/
theorem NewestRuns.start {t : RunTable} (ho : ∀ r ∈ t.running, r ∈ orphans)
    (states : List BotStateRow) : NewestRuns (t.start orphans states) := by
  intro r hr
  rw [mem_running] at hr
  obtain ⟨hlt, hs⟩ := hr
  simp only [RunTable.start] at hlt hs ⊢
  by_cases he : r = t.size
  · rw [he]
  · rw [if_neg he] at hs
    have hold : r < t.size := by omega
    split at hs
    · cases hs
    · rename_i hn
      exact absurd (ho r (t.mem_running.mpr ⟨hold, hs⟩)) hn

end RunTable

/-- `_resolve_carried_over_state`, once the previous run is known: a state that stops
the loop is carried over. -/
def carriedOver (t : RunTable) (previous : Option ℕ) : Option BotState :=
  match previous with
  | none => none
  | some r =>
    match latestState (t.run r).states with
    | none => none
    | some raw =>
      match BotState.ofValue raw with
      | none => none
      | some persisted => if persisted.isRunning then none else some persisted

/-- The row that a carried-over state is stored as. -/
def carriedRows (carried : Option BotState) : List BotStateRow :=
  carried.toList.map (EmergencyStopService.newRow .active)

/-- How far the transaction of the starting worker is. Its reads see what is
committed; its updates lock the runs they close. -/
inductive StartPhase
  | begin
  | foundPrevious (previous : Option ℕ)
  | resolved (carried : Option BotState)
  | closing (carried : Option BotState) (pending updated : List ℕ)
  | inserted (carried : Option BotState) (updated : List ℕ)
  | done (run : ℕ) (carried : Option BotState)

namespace StartPhase

def locks : StartPhase → List ℕ
  | .closing _ _ updated | .inserted _ updated => updated
  | _ => []

def carried : StartPhase → Option BotState
  | .resolved c | .closing c _ _ | .inserted c _ | .done _ c => c
  | _ => none

/-- Between the read of the last state, which gave nothing to carry over, and the
update of the last orphan. -/
def inWindow : StartPhase → Bool
  | .resolved c | .closing c _ _ => c.isNone
  | _ => false

end StartPhase

/-- How far the transaction of the request is. -/
inductive RequestPhase
  | idle
  | resolved (run : ℕ)
  | locked (run : ℕ)
  | committed (run : ℕ)
  | rejected

structure Restart where
  table : RunTable
  start : StartPhase := .begin
  request : RequestPhase := .idle

/-- The commit of the request, with the phase that it met the start in. -/
inductive RestartEvent
  | silent
  | killed (inWindow : Bool)

def RunTable.view (t : RunTable) (r : ℕ) : LockedView :=
  ⟨some (t.run r).status, latestState (t.run r).states⟩

/-- One statement of either transaction. -/
inductive RestartStep : Restart → RestartEvent → Restart → Prop
  | findPrevious {t : RunTable} {q : RequestPhase} :
      RestartStep ⟨t, .begin, q⟩ .silent ⟨t, .foundPrevious t.getMostRecent, q⟩
  | readState {t : RunTable} {previous : Option ℕ} {q : RequestPhase} :
      RestartStep ⟨t, .foundPrevious previous, q⟩ .silent ⟨t, .resolved (carriedOver t previous), q⟩
  | selectOrphans {t : RunTable} {c : Option BotState} {q : RequestPhase} :
      RestartStep ⟨t, .resolved c, q⟩ .silent ⟨t, .closing c t.running [], q⟩
  -- The update waits for a request that holds the run.
  | closeOrphan {t : RunTable} {c : Option BotState} {r : ℕ} {pending updated : List ℕ}
      {q : RequestPhase} (h : q ≠ .locked r) :
      RestartStep ⟨t, .closing c (r :: pending) updated, q⟩ .silent
        ⟨t, .closing c pending (r :: updated), q⟩
  | insertRun {t : RunTable} {c : Option BotState} {updated : List ℕ} {q : RequestPhase} :
      RestartStep ⟨t, .closing c [] updated, q⟩ .silent ⟨t, .inserted c updated, q⟩
  | commitStart {t : RunTable} {c : Option BotState} {updated : List ℕ} {q : RequestPhase} :
      RestartStep ⟨t, .inserted c updated, q⟩ .silent
        ⟨t.start updated (carriedRows c), .done t.size c, q⟩
  -- A request may name its run; else it takes the running one.
  | resolveRun {t : RunTable} {p : StartPhase} {r : ℕ} (h : r < t.size) :
      RestartStep ⟨t, p, .idle⟩ .silent ⟨t, p, .resolved r⟩
  | lockRun {t : RunTable} {p : StartPhase} {r : ℕ} (h : r ∉ p.locks) :
      RestartStep ⟨t, p, .resolved r⟩ .silent ⟨t, p, .locked r⟩
  | commitKill {t : RunTable} {p : StartPhase} {r : ℕ} {current : BotState}
      (h : EmergencyStopService.admission (t.view r) .killSwitchTriggered none = .ok current) :
      RestartStep ⟨t, p, .locked r⟩ (.killed p.inWindow)
        ⟨t.addState r (EmergencyStopService.newRow current .killSwitchTriggered), p, .committed r⟩
  | reject {t : RunTable} {p : StartPhase} {r : ℕ} {e : EmergencyStopRejected}
      (h : EmergencyStopService.admission (t.view r) .killSwitchTriggered none = .error e) :
      RestartStep ⟨t, p, .locked r⟩ .silent ⟨t, p, .rejected⟩

/-- The state in which a run that carries this over begins. -/
def beginsIn (carried : Option BotState) : BotState := carried.getD .active

/-- It is the state that its rows give to every later reader. -/
theorem beginsIn_persisted (carried : Option BotState) :
    resolvePersistedState (latestState (carriedRows carried)) = some (beginsIn carried) := by
  cases carried with
  | none => rfl
  | some s => exact BotState.ofValue_value s

theorem carriedOver_stopped (h : carriedOver t previous = some s) : ¬s.isRunning := by
  unfold carriedOver at h
  repeat' split at h
  all_goals cases h
  assumption

theorem carriedOver_kill {t : RunTable}
    (h : latestState (t.run r).states = some BotState.killSwitchTriggered.value) :
    carriedOver t (some r) = some .killSwitchTriggered := by
  simp only [carriedOver, h, BotState.ofValue_value]
  rfl

/-- What the start has read is still so. -/
def StartPhase.Knows (t : RunTable) : StartPhase → Prop
  | .foundPrevious previous => previous = t.getMostRecent
  | .closing _ pending updated => ∀ r ∈ t.running, r ∈ pending ∨ r ∈ updated
  | .inserted _ updated => ∀ r ∈ t.running, r ∈ updated
  | .done n _ => n + 1 = t.size
  | .begin | .resolved _ => True

structure StartInv (t : RunTable) (p : StartPhase) : Prop where
  newest : t.NewestRuns
  stopped : ∀ s ∈ p.carried, ¬s.isRunning
  knows : p.Knows t

/-- The commit of a request touches nothing that the start relies on. -/
theorem StartPhase.Knows.addState {t : RunTable} {p : StartPhase} (h : p.Knows t) (r : ℕ)
    (row : BotStateRow) : p.Knows (t.addState r row) := by
  cases p with
  | foundPrevious previous => exact h
  | closing c pending updated =>
    intro r' hr
    rw [RunTable.addState_running] at hr
    exact h r' hr
  | inserted c updated =>
    intro r' hr
    rw [RunTable.addState_running] at hr
    exact h r' hr
  | done n c => exact h
  | begin | resolved c => trivial

theorem StartInv.step (h : StartInv s.table s.start) (hs : RestartStep s e s') :
    StartInv s'.table s'.start := by
  cases hs with
  | findPrevious => exact ⟨h.newest, h.stopped, rfl⟩
  | readState => exact ⟨h.newest, fun _ hc => carriedOver_stopped hc, trivial⟩
  | selectOrphans => exact ⟨h.newest, h.stopped, fun _ hr => .inl hr⟩
  | closeOrphan =>
    refine ⟨h.newest, h.stopped, ?_⟩
    intro r hr
    have hin := h.knows r hr
    simp only [List.mem_cons] at hin ⊢
    tauto
  | insertRun =>
    refine ⟨h.newest, h.stopped, ?_⟩
    intro r hr
    exact (h.knows r hr).resolve_left List.not_mem_nil
  | commitStart => exact ⟨.start h.knows _, h.stopped, rfl⟩
  | resolveRun | lockRun | reject => exact h
  | @commitKill t p r current ha =>
    refine ⟨?_, h.stopped, h.knows.addState _ _⟩
    intro r' hr
    rw [RunTable.addState_running] at hr
    exact h.newest r' hr

/-- What becomes of a committed kill switch: the start will still see it, or has, or
will not. -/
def Fate (t : RunTable) (r : ℕ) : StartPhase → Bool → Prop
  | .begin, seen | .foundPrevious _, seen =>
    seen = true ∧ r + 1 = t.size ∧
      latestState (t.run r).states = some BotState.killSwitchTriggered.value
  | .resolved c, seen | .closing c _ _, seen | .inserted c _, seen => seen = c.isSome
  | .done n c, seen => seen = true ↔ c ≠ none ∨ r = n

/-- A kill switch that is committed in the window is the one that is lost: everywhere
else the run is the newest one, and the state still to be read, or the lock is not to
be had. -/
theorem Fate.of_commit (h : StartInv t p) (hl : r ∉ p.locks)
    (ha : EmergencyStopService.admission (t.view r) .killSwitchTriggered none = .ok current)
    (hr : r < t.size) :
    Fate (t.addState r (EmergencyStopService.newRow current .killSwitchTriggered)) r p
      (!p.inWindow) := by
  obtain ⟨hs, _⟩ := EmergencyStopService.admission_ok ha
  have hrun : r ∈ t.running := t.mem_running.mpr ⟨hr, Option.some.inj hs⟩
  have hn : r + 1 = t.size := h.newest r hrun
  cases p with
  | begin | foundPrevious previous => exact ⟨rfl, hn, t.addState_latest r _⟩
  | resolved c | closing c pending updated => cases c <;> rfl
  | inserted c updated => exact absurd (h.knows r hrun) hl
  | done n c =>
    have hd : n + 1 = t.size := h.knows
    have hrn : r = n := by omega
    simp [Fate, StartPhase.inWindow, hrn]

/-- The read of the last state finds a kill switch that is committed before it. -/
theorem Fate.readState {t : RunTable} (h : StartInv t (.foundPrevious previous))
    (hf : Fate t r (.foundPrevious previous) seen) :
    Fate t r (.resolved (carriedOver t previous)) seen := by
  obtain ⟨rfl, hn, hk⟩ := hf
  have hp : previous = t.getMostRecent := h.knows
  have hprev : previous = some r := by
    rw [hp, RunTable.getMostRecent, if_neg (by omega)]
    congr
    omega
  rw [hprev, Fate, carriedOver_kill hk]
  rfl

/-- What is so of the request, given the commits so far. -/
def RequestInv (t : RunTable) (p : StartPhase) (es : List RestartEvent) : RequestPhase → Prop
  | .committed r => r < t.size ∧ ∃ w, (∀ b, .killed b ∈ es ↔ b = w) ∧ Fate t r p (!w)
  | .locked r => (∀ b, .killed b ∉ es) ∧ r < t.size ∧ r ∉ p.locks
  | .resolved r => (∀ b, .killed b ∉ es) ∧ r < t.size
  | .idle | .rejected => ∀ b, .killed b ∉ es

/-- The start moves on, and the request stays where it is. -/
theorem RequestInv.start_step (h : RequestInv t p es q) (hsize : t.size ≤ t'.size)
    (hlocks : ∀ r, q = .locked r → r ∉ p.locks → r ∉ p'.locks)
    (hfate : ∀ r seen, r < t.size → Fate t r p seen → Fate t' r p' seen) :
    RequestInv t' p' (es ++ [.silent]) q := by
  cases q with
  | idle | rejected => simpa [RequestInv] using h
  | resolved r =>
    obtain ⟨hes, hr⟩ := h
    exact ⟨by simpa using hes, by omega⟩
  | locked r =>
    obtain ⟨hes, hr, hl⟩ := h
    exact ⟨by simpa using hes, by omega, hlocks r rfl hl⟩
  | committed r =>
    obtain ⟨hr, w, hes, hf⟩ := h
    exact ⟨by omega, w, by simpa using hes, hfate r _ hr hf⟩

theorem RequestInv.step (hi : StartInv s.table s.start)
    (h : RequestInv s.table s.start es s.request) (hs : RestartStep s e s') :
    RequestInv s'.table s'.start (es ++ [e]) s'.request := by
  cases hs with
  | findPrevious => exact h.start_step le_rfl (fun _ _ hl => hl) (fun _ _ _ hf => hf)
  | readState => exact h.start_step le_rfl (fun _ _ hl => hl) (fun _ _ _ hf => hf.readState hi)
  | selectOrphans => exact h.start_step le_rfl (fun _ _ hl => hl) (fun _ _ _ hf => hf)
  | insertRun => exact h.start_step le_rfl (fun _ _ hl => hl) (fun _ _ _ hf => hf)
  | @closeOrphan t c r pending updated q hq =>
    refine h.start_step le_rfl ?_ (fun _ _ _ hf => hf)
    intro r' hr' hl hm
    rcases List.mem_cons.mp hm with rfl | hm
    · exact hq hr'
    · exact hl hm
  | @commitStart t c updated q =>
    refine h.start_step (Nat.le_succ _) (fun _ _ _ => List.not_mem_nil) ?_
    intro r seen hr hf
    have hne : r ≠ t.size := Nat.ne_of_lt hr
    simpa [Fate, hne, Option.isSome_iff_ne_none] using congrArg (· = true) hf
  | resolveRun hr =>
    have hes : ∀ b, .killed b ∉ es := h
    exact ⟨by simpa using hes, hr⟩
  | lockRun hl =>
    obtain ⟨hes, hr⟩ := h
    exact ⟨by simpa using hes, hr, hl⟩
  | @commitKill t p r current ha =>
    obtain ⟨hes, hr, hl⟩ := h
    exact ⟨hr, p.inWindow, by simp [hes], Fate.of_commit hi hl ha hr⟩
  | reject =>
    obtain ⟨hes, _⟩ := h
    simpa [RequestInv] using hes

theorem beginsIn_active_iff (h : ∀ s ∈ carried, ¬s.isRunning) :
    beginsIn carried = .active ↔ carried = none := by
  cases carried with
  | none => simp [beginsIn]
  | some s =>
    have hs := h s rfl
    simp only [beginsIn, Option.getD_some, reduceCtorEq, iff_false]
    rintro rfl
    exact hs rfl

/-- A committed kill switch outlives the restart just when its commit does not fall
between the read of the state to carry over and the update that closes the run. -/
theorem kill_switch_survives_iff (hn : t.NewestRuns) (hr : Run RestartStep ⟨t, .begin, .idle⟩ es s)
    (hd : s.start = .done n carried) (hc : s.request = .committed r) :
    (beginsIn carried ≠ .active ∨ r = n) ↔ .killed true ∉ es := by
  have hi : StartInv s.table s.start ∧ RequestInv s.table s.start es s.request := by
    refine hr.invariant_trace
      (I := fun es s => StartInv s.table s.start ∧ RequestInv s.table s.start es s.request) ?_ ?_
    · refine ⟨⟨hn, ?_, trivial⟩, ?_⟩
      · intro s hs
        cases hs
      · intro b hb
        cases hb
    · rintro es s e s' ⟨hi, hq⟩ hs
      exact ⟨hi.step hs, hq.step hi hs⟩
  obtain ⟨hi, hq⟩ := hi
  rw [hd] at hi hq
  rw [hc] at hq
  obtain ⟨_, w, hes, hf⟩ := hq
  have hb : beginsIn carried = .active ↔ carried = none := beginsIn_active_iff hi.stopped
  have hw : (!w) = true ↔ carried ≠ none ∨ r = n := hf
  rw [hes true, ne_eq, hb, ← hw]
  cases w <;> simp

/-- One run, whose worker was killed without a clean shutdown. -/
def crashedTable : RunTable where
  size := 1
  run _ := ⟨.running, []⟩

theorem crashedTable_newest : crashedTable.NewestRuns := by
  intro r hr
  have hlt := (crashedTable.mem_running.mp hr).1
  exact Nat.le_antisymm hlt (Nat.succ_le_succ r.zero_le)

def killedTable : RunTable :=
  crashedTable.addState 0 (EmergencyStopService.newRow .active .killSwitchTriggered)

theorem killedTable_running : killedTable.running = [0] := by decide

/-- The start goes on undisturbed once it knows what to carry over. -/
theorem resolved_start_finishes (carried : Option BotState) :
    Run RestartStep ⟨killedTable, .resolved carried, .committed 0⟩
      [.silent, .silent, .silent, .silent]
      ⟨killedTable.start [0] (carriedRows carried), .done 1 carried, .committed 0⟩ := by
  have hselect : RestartStep ⟨killedTable, .resolved carried, .committed 0⟩ .silent
      ⟨killedTable, .closing carried [0] [], .committed 0⟩ := by
    rw [← killedTable_running]
    exact .selectOrphans
  refine .cons hselect (.cons (.closeOrphan ?_) (.cons .insertRun (.cons .commitStart (.nil _))))
  intro hlocked
  cases hlocked

theorem early_kill_run : Run RestartStep ⟨crashedTable, .begin, .idle⟩
    [.silent, .silent, .killed false, .silent, .silent, .silent, .silent, .silent, .silent]
    ⟨killedTable.start [0] (carriedRows (some .killSwitchTriggered)),
      .done 1 (some .killSwitchTriggered), .committed 0⟩ :=
  .cons (.resolveRun (r := 0) Nat.zero_lt_one) (.cons (.lockRun List.not_mem_nil)
    (.cons (.commitKill rfl) (.cons .findPrevious (.cons .readState
      (resolved_start_finishes (some .killSwitchTriggered))))))

theorem early_kill_survives : beginsIn (some .killSwitchTriggered) ≠ .active ∨ 0 = 1 :=
  (kill_switch_survives_iff crashedTable_newest early_kill_run rfl rfl).mpr (by simp)

/-- The request commits after the start has read that there is nothing to carry over. -/
theorem late_kill_run : Run RestartStep ⟨crashedTable, .begin, .idle⟩
    [.silent, .silent, .silent, .silent, .killed true, .silent, .silent, .silent, .silent]
    ⟨killedTable.start [0] (carriedRows none), .done 1 none, .committed 0⟩ :=
  .cons .findPrevious (.cons .readState (.cons (.resolveRun (r := 0) Nat.zero_lt_one)
    (.cons (.lockRun List.not_mem_nil) (.cons (.commitKill rfl)
      (resolved_start_finishes none)))))

theorem late_kill_is_lost :
    ¬∀ (t : RunTable) (es : List RestartEvent) (s : Restart) (n r : ℕ) (carried : Option BotState),
      t.NewestRuns → Run RestartStep ⟨t, .begin, .idle⟩ es s → s.start = .done n carried →
      s.request = .committed r → beginsIn carried ≠ .active ∨ r = n := by
  intro h
  rcases h _ _ _ _ _ _ crashedTable_newest late_kill_run rfl rfl with hb | hn
  · exact hb rfl
  · cases hn

end FuturesBot
