import FuturesBot.Control.Workers

namespace FuturesBot
open Lib

/-- A start of a worker carries over a stop, or will when it has read the last state. -/
def WorkerPhase.Carries (t : RunTable) : WorkerPhase → Prop
  | .begun (.foundPrevious previous) => (carriedOver t previous).isSome
  | .begun (.resolved c) | .begun (.closing c _ _) | .begun (.inserted c _) => c.isSome
  | _ => True

/-- The state that a start has read, before it is committed. -/
def WorkerPhase.reads : WorkerPhase → Option BotState
  | .begun (.resolved c) | .begun (.closing c _ _) | .begun (.inserted c _) => c
  | _ => none

theorem latestState_carriedRows (s : BotState) :
    latestState (carriedRows (some s)) = some s.value := rfl

theorem carriedOver_some (h : latestState (t.run r).states = some s.value) (hs : ¬s.isRunning) :
    carriedOver t (some r) = some s := by
  simp only [carriedOver, h, BotState.ofValue_value, if_neg hs]

theorem carriedOver_isSome : (carriedOver t (some r)).isSome ↔
    ∃ s : BotState, latestState (t.run r).states = some s.value ∧ ¬s.isRunning := by
  constructor
  · intro h
    obtain ⟨s, hs⟩ := Option.isSome_iff_exists.mp h
    refine ⟨s, ?_, carriedOver_stopped hs⟩
    unfold carriedOver at hs
    dsimp only at hs
    split at hs
    · cases hs
    · rename_i raw hraw
      split at hs
      · cases hs
      · rename_i persisted hpersisted
        split at hs
        · cases hs
        · obtain rfl := Option.some.inj hs
          rw [hraw, BotState.value_of_ofValue hpersisted]
  · rintro ⟨s, hlatest, hs⟩
    exact Option.isSome_of_eq_some (carriedOver_some hlatest hs)

/-- What is carried over depends on the rows of the run alone. -/
theorem carriedOver_congr {t u : RunTable} (h : (t.run r).states = (u.run r).states) :
    carriedOver t (some r) = carriedOver u (some r) := by
  simp only [carriedOver, h]

namespace RunTable

theorem close_states (t : RunTable) (r m : ℕ) : ((t.close r).run m).states = (t.run m).states := by
  unfold close
  by_cases h : m = r
  · rw [h]
    simp
  · simp [h]

theorem addState_states (t : RunTable) {r m : ℕ} (h : m ≠ r) (row : BotStateRow) :
    ((t.addState r row).run m).states = (t.run m).states := by
  simp [addState, h]

theorem start_states (t : RunTable) {m : ℕ} (h : m ≠ t.size) (orphans : List ℕ)
    (states : List BotStateRow) : ((t.start orphans states).run m).states = (t.run m).states := by
  simp only [start, if_neg h]
  split <;> rfl

theorem start_states_new (t : RunTable) (orphans : List ℕ) (states : List BotStateRow) :
    ((t.start orphans states).run t.size).states = states := by
  simp [start]

end RunTable

theorem WorkerPhase.Carries.mono {p : WorkerPhase} {t u : RunTable} (h : p.Carries t)
    (hprevious : ∀ r, p = .begun (.foundPrevious (some r)) →
      (carriedOver t (some r)).isSome → (carriedOver u (some r)).isSome) : p.Carries u := by
  cases p with
  | absent | conflicted | closing => exact h
  | begun phase =>
    cases phase with
    | foundPrevious previous =>
      cases previous with
      | none => cases h
      | some r => exact hprevious r rfl h
    | begin | resolved | closing | inserted | done => exact h

variable {ω : Type u} {f g : Fleet ω}

namespace Fleet

/-- A start reads of a run that is there, and carries over no other state than a stop. -/
structure Sound (f : Fleet ω) : Prop where
  owned : f.Owned
  previous : ∀ w r, f.worker w = .begun (.foundPrevious (some r)) → r < f.table.size
  stopped : ∀ w s, (f.worker w).reads = some s → ¬s.isRunning

/-- From the run on, every one is stopped, and every start carries that over. -/
structure StoppedFrom (r : ℕ) (f : Fleet ω) : Prop where
  sound : f.Sound
  there : r < f.table.size
  runs : ∀ m, r ≤ m → m < f.table.size → (carriedOver f.table (some m)).isSome
  carries : ∀ w, (f.worker w).Carries f.table

theorem Sound.fresh {t : RunTable} (h : t.NewestRuns) : (Fleet.fresh t : Fleet ω).Sound where
  owned := .fresh h
  previous _ _ h := by cases h
  stopped _ _ h := by cases h

/-- A trigger that is let through is on the newest run. -/
theorem Owned.newest_of_admission (h : f.Owned) (hr : r < f.table.size)
    (hallowed : EmergencyStopService.admission (f.table.view r) target required = .ok current) :
    r + 1 = f.table.size := by
  obtain ⟨hstatus, -⟩ := EmergencyStopService.admission_ok hallowed
  exact h.newest r (f.table.mem_running.mpr ⟨hr, Option.some.inj hstatus⟩)

/-- No trigger gets a stopped run going again. -/
theorem carries_of_admission {trigger : Trigger} (h : (carriedOver f.table (some r)).isSome)
    (hallowed : EmergencyStopService.admission (f.table.view r) trigger.target
      trigger.requireCurrentIn = .ok current) : ¬trigger.target.isRunning := by
  obtain ⟨s, hlatest, hs⟩ := carriedOver_isSome.mp h
  obtain ⟨-, hcurrent, hstates, -⟩ := EmergencyStopService.admission_ok hallowed
  have hsame : current = s := by
    simp only [RunTable.view, hlatest, resolvePersistedState, BotState.ofValue_value] at hcurrent
    exact (Option.some.inj hcurrent).symm
  cases trigger with
  | killSwitch request => exact Bool.false_ne_true
  | reconciliationGate worker | connectionHealth worker =>
    have hin := hstates _ rfl
    rw [List.mem_singleton] at hin
    rw [← hsame, hin] at hs
    exact absurd rfl hs

theorem StoppedFrom.mostRecent (h : f.StoppedFrom r) :
    (carriedOver f.table f.table.getMostRecent).isSome := by
  have hthere := h.there
  rw [RunTable.getMostRecent, if_neg (by omega)]
  exact h.runs _ (by omega) (by omega)

variable [DecidableEq ω]

theorem size_le_of_step {e : FleetEvent ω} (hs : FleetStep f e g) :
    f.table.size ≤ g.table.size := by
  rcases size_of_step hs with ⟨w, c, -, hsize⟩ | ⟨-, hsize⟩ <;> omega

/-- A stopped run stays stopped. -/
theorem stopped_of_step {e : FleetEvent ω} (hs : FleetStep f e g) (hm : m < f.table.size)
    (h : (carriedOver f.table (some m)).isSome) : (carriedOver g.table (some m)).isSome := by
  cases hs with
  | commitStart => rwa [carriedOver_congr (f.table.start_states (Nat.ne_of_lt hm) _ _)]
  | commitClose => rwa [carriedOver_congr (f.table.close_states _ _)]
  | @trigger r trigger current hr hfree hallowed =>
    by_cases hmr : m = r
    · subst hmr
      have hstop := carries_of_admission h hallowed
      exact carriedOver_isSome.mpr ⟨_, f.table.addState_latest m _, hstop⟩
    · rwa [carriedOver_congr (f.table.addState_states hmr _)]
  | boot | findPrevious | readState | selectOrphans | closeOrphan | insertRun | conflict | refuse
  | reraise | flushClose | kill => exact h

theorem previous_of_step {e : FleetEvent ω} (hs : FleetStep f e g)
    (hw : g.worker w = .begun (.foundPrevious previous)) :
    f.worker w = .begun (.foundPrevious previous) ∨ previous = f.table.getMostRecent := by
  by_cases hactor : e.worker = some w
  · cases hs with
    | trigger => cases hactor
    | findPrevious =>
      obtain rfl := Option.some.inj hactor
      simp only [put, Function.update_self] at hw
      cases hw
      exact .inr rfl
    | commitStart | commitClose | boot | readState | selectOrphans | closeOrphan | insertRun
    | conflict | refuse | reraise | flushClose | kill =>
      obtain rfl := Option.some.inj hactor
      simp only [put, Function.update_self] at hw
      cases hw
  · rw [worker_of_step hs hactor] at hw
    exact .inl hw

theorem reads_of_step {e : FleetEvent ω} (hs : FleetStep f e g)
    (hw : (g.worker w).reads = some s) : (f.worker w).reads = some s ∨
      ∃ previous, carriedOver f.table previous = some s := by
  by_cases hactor : e.worker = some w
  · cases hs with
    | trigger => cases hactor
    | @readState v previous =>
      obtain rfl := Option.some.inj hactor
      simp only [put, Function.update_self, WorkerPhase.reads] at hw
      exact .inr ⟨previous, hw⟩
    | selectOrphans hv | closeOrphan hv | insertRun hv =>
      obtain rfl := Option.some.inj hactor
      simp only [put, Function.update_self, WorkerPhase.reads] at hw
      exact .inl (by rw [hv]; exact hw)
    | commitStart | commitClose | boot | findPrevious | conflict | refuse | reraise | flushClose
    | kill =>
      obtain rfl := Option.some.inj hactor
      simp only [put, Function.update_self] at hw
      cases hw
  · rw [worker_of_step hs hactor] at hw
    exact .inl hw

theorem Sound.step {e : FleetEvent ω} (h : f.Sound) (hs : FleetStep f e g) : g.Sound where
  owned := h.owned.step hs
  previous w r hw := by
    refine lt_of_lt_of_le ?_ (size_le_of_step hs)
    rcases previous_of_step hs hw with hold | hnew
    · exact h.previous w r hold
    · unfold RunTable.getMostRecent at hnew
      split at hnew
      · cases hnew
      · obtain rfl := Option.some.inj hnew
        omega
  stopped w s hw := by
    rcases reads_of_step hs hw with hold | ⟨previous, hcarried⟩
    · exact h.stopped w s hold
    · exact carriedOver_stopped hcarried

theorem StoppedFrom.carries_step {e : FleetEvent ω} (h : f.StoppedFrom r) (hs : FleetStep f e g)
    (w : ω) : (g.worker w).Carries g.table := by
  by_cases hactor : e.worker = some w
  · have hcarries := h.carries w
    cases hs with
    | trigger => cases hactor
    | findPrevious =>
      obtain rfl := Option.some.inj hactor
      simp only [put, Function.update_self]
      exact h.mostRecent
    | readState hv | selectOrphans hv | closeOrphan hv | insertRun hv =>
      obtain rfl := Option.some.inj hactor
      rw [hv] at hcarries
      simp only [put, Function.update_self]
      exact hcarries
    | commitStart | commitClose | boot | conflict | refuse | reraise | flushClose | kill =>
      obtain rfl := Option.some.inj hactor
      simp only [put, Function.update_self]
      trivial
  · have hcarries := h.carries w
    have hprevious := h.sound.previous w
    rw [worker_of_step hs hactor]
    exact hcarries.mono fun m hm => stopped_of_step hs (hprevious m hm)

theorem StoppedFrom.step {e : FleetEvent ω} (h : f.StoppedFrom r) (hs : FleetStep f e g) :
    g.StoppedFrom r where
  sound := h.sound.step hs
  there := h.there.trans_le (size_le_of_step hs)
  runs m hle hlt := by
    by_cases hm : m < f.table.size
    · exact stopped_of_step hs hm (h.runs m hle hm)
    · rcases size_of_step hs with ⟨w, c, rfl, hsize⟩ | ⟨-, hsize⟩
      · obtain rfl : m = f.table.size := by omega
        cases hs with
        | commitStart hw =>
          have hcarries := h.carries w
          rw [hw] at hcarries
          obtain ⟨s, rfl⟩ := Option.isSome_iff_exists.mp hcarries
          have hstop := h.sound.stopped w s (by rw [hw]; rfl)
          refine carriedOver_isSome.mpr ⟨s, ?_, hstop⟩
          rw [f.table.start_states_new, latestState_carriedRows]
      · omega
  carries := h.carries_step hs

/-- What a start carries over from then on. -/
theorem StoppedFrom.started (h : f.StoppedFrom r) (hs : FleetStep f (.started w n c) g) :
    ¬(beginsIn c).isRunning := by
  cases hs with
  | commitStart hw =>
    have hcarries := h.carries w
    rw [hw] at hcarries
    obtain ⟨s, rfl⟩ := Option.isSome_iff_exists.mp hcarries
    exact h.sound.stopped w s (by rw [hw]; rfl)

theorem StoppedFrom.of_kill {request : ℕ} (h : f.Sound)
    (hs : FleetStep f (.triggered r (.killSwitch request)) g)
    (hseen : ∀ w, (f.worker w).Carries g.table) : g.StoppedFrom r := by
  have hsound := h.step hs
  cases hs with
  | @trigger _ _ current hr hfree hallowed =>
    have hnew := h.owned.newest_of_admission hr hallowed
    refine ⟨hsound, hr, fun m hle hlt => ?_, hseen⟩
    obtain rfl : m = r := by
      have hlt : m < f.table.size := hlt
      omega
    exact carriedOver_isSome.mpr
      ⟨.killSwitchTriggered, f.table.addState_latest m _, Bool.false_ne_true⟩

theorem StoppedFrom.of_run (h : f.StoppedFrom r) (hr : Run FleetStep f es g) :
    g.StoppedFrom r ∧ ∀ w n c, .started w n c ∈ es → ¬(beginsIn c).isRunning := by
  refine hr.invariant_trace (I := fun es g => g.StoppedFrom r ∧
    ∀ w n c, .started w n c ∈ es → ¬(beginsIn c).isRunning) ⟨h, fun _ _ _ hm => by cases hm⟩ ?_
  rintro es f e g ⟨hstopped, hbefore⟩ hs
  refine ⟨hstopped.step hs, fun w n c hstarted => ?_⟩
  rcases List.mem_append.mp hstarted with hold | hnew
  · exact hbefore w n c hold
  · obtain rfl := List.mem_singleton.mp hnew
    exact hstopped.started hs

namespace Rebooted

/-- The worker that comes up after the kill switch. -/
def trace : List (FleetEvent Unit) :=
  [.quiet (), .quiet (), .quiet (), .selected (), .quiet (), .quiet (),
    .started () 1 (some .killSwitchTriggered)]

def rebooted : Fleet Unit where
  table := killedTable.start [0] (carriedRows (some .killSwitchTriggered))
  worker _ := .begun (.done 1 (some .killSwitchTriggered))

theorem killed : FleetStep (Fleet.fresh crashedTable : Fleet Unit)
    (.triggered 0 (.killSwitch 0)) (Fleet.fresh killedTable) :=
  .trigger Nat.zero_lt_one (fun _ => List.not_mem_nil) rfl

theorem run : Run FleetStep (Fleet.fresh killedTable) trace rebooted := by
  have hrun : ∃ f, Run FleetStep (Fleet.fresh killedTable) trace f ∧ f.table = rebooted.table ∧
      ∀ w, f.worker w = rebooted.worker w := by
    refine ⟨_, .cons (.boot rfl) (.cons (.findPrevious rfl) (.cons (.readState rfl)
      (.cons (.selectOrphans rfl) (.cons (.closeOrphan (r := 0) rfl ?_)
      (.cons (.insertRun rfl ?_ ?_) (.cons (.commitStart rfl) (.nil _))))))), rfl, ?_⟩
    · exact fun v hv => absurd rfl hv
    · exact fun _ => id
    · decide
    · exact fun _ => rfl
  obtain ⟨⟨table, worker⟩, hrun, rfl, hworker⟩ := hrun
  obtain rfl : worker = rebooted.worker := funext hworker
  exact hrun

end Rebooted

/-- A kill switch that no start has read past outlives all restarts: whatever workers are started,
refused, stopped or killed after it and whatever is triggered, no later run begins otherwise than
stopped, and none is ever going again. -/
theorem kill_outlives_restarts (t : RunTable) (ht : t.NewestRuns) (es es' : List (FleetEvent ω))
    (f g h : Fleet ω) (r request : ℕ) (hr : Run FleetStep (Fleet.fresh t) es f)
    (hs : FleetStep f (.triggered r (.killSwitch request)) g)
    (hseen : ∀ w, (f.worker w).Carries g.table) (hr' : Run FleetStep g es' h) :
    (∀ w n c, .started w n c ∈ es' → ¬(beginsIn c).isRunning) ∧
      ∀ m, r ≤ m → m < h.table.size → ∃ s,
        resolvePersistedState (latestState (h.table.run m).states) = some s ∧ ¬s.isRunning := by
  have hsound : f.Sound := hr.invariant (.fresh ht) fun _ _ _ h hs => h.step hs
  obtain ⟨hstopped, hstarted⟩ := (StoppedFrom.of_kill hsound hs hseen).of_run hr'
  refine ⟨hstarted, fun m hle hlt => ?_⟩
  obtain ⟨s, hlatest, hs⟩ := carriedOver_isSome.mp (hstopped.runs m hle hlt)
  exact ⟨s, by rw [hlatest]; exact BotState.ofValue_value s, hs⟩

theorem rebooted_stopped :
    (∀ w n c, .started w n c ∈ Rebooted.trace → ¬(beginsIn c).isRunning) ∧
      ∀ m, 0 ≤ m → m < Rebooted.rebooted.table.size → ∃ s,
        resolvePersistedState (latestState (Rebooted.rebooted.table.run m).states) = some s ∧
          ¬s.isRunning :=
  kill_outlives_restarts crashedTable crashedTable_newest [] Rebooted.trace
    (Fleet.fresh crashedTable) (Fleet.fresh killedTable) Rebooted.rebooted 0 0 (.nil _)
    Rebooted.killed (fun _ => trivial) Rebooted.run

end Fleet

end FuturesBot
