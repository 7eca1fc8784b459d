import FuturesBot.Control.Restart
import FuturesBot.Control.Triggers

namespace FuturesBot
open Lib

/-- How far a worker process is. The transaction of its start is followed phase by phase until
it is done, and then the worker runs its loop. -/
inductive WorkerPhase
  | absent
  | begun (phase : StartPhase)
  -- The unique index has rejected the new run, and what was updated before is still locked.
  | conflicted (updated : List ℕ)
  | closing (run : ℕ)

namespace WorkerPhase

/-- The runs whose rows its open transaction has updated. -/
def locks : WorkerPhase → List ℕ
  | .begun phase => phase.locks
  | .conflicted updated => updated
  | .closing run => [run]
  | .absent => []

/-- The run that a worker has started and not yet left. -/
def run : WorkerPhase → Option ℕ
  | .begun (.done run _) | .closing run => some run
  | _ => none

/-- The runs that a start has found running, from its look at them to its insertion. -/
def found : WorkerPhase → Option (List ℕ)
  | .begun (.closing _ pending updated) => some (pending ++ updated)
  | .begun (.inserted _ updated) => some updated
  | .conflicted _ => some []
  | _ => none

/-- A new run is in the index, and not yet committed. -/
def inserted : WorkerPhase → Prop
  | .begun (.inserted _ _) => True
  | _ => False

end WorkerPhase

namespace RunTable

/-- `get_active`, in a transaction that has updated these runs. -/
def getActive (t : RunTable) (updated : List ℕ) : Option ℕ :=
  (t.running.filter (· ∉ updated)).getLast?

/-- What a clean shutdown commits. -/
def close (t : RunTable) (r : ℕ) : RunTable :=
  { t with run := Function.update t.run r { t.run r with status := .stopped } }

theorem close_status (t : RunTable) (r m : ℕ) :
    ((t.close r).run m).status = if m = r then .stopped else (t.run m).status := by
  unfold close
  split
  · rename_i h
    rw [h]
    simp
  · rename_i h
    simp [h]

theorem addState_status (t : RunTable) (r m : ℕ) (row : BotStateRow) :
    ((t.addState r row).run m).status = (t.run m).status := by
  unfold addState
  by_cases h : m = r
  · rw [h]
    simp
  · simp [h]

theorem start_status_new (t : RunTable) (orphans : List ℕ) (states : List BotStateRow) :
    ((t.start orphans states).run t.size).status = .running := by
  simp [start]

theorem running_of_close {t : RunTable} (h : m ∈ (t.close r).running) : m ∈ t.running ∧ m ≠ r := by
  rw [mem_running, close_status] at h
  split at h
  · cases h.2
  · rename_i hne
    exact ⟨t.mem_running.mpr h, hne⟩

/-- With the newest run running, it is the only one. -/
theorem NewestRuns.eq {t : RunTable} (h : t.NewestRuns) (hr : r ∈ t.running)
    (hm : m ∈ t.running) : r = m := by
  have h1 := h r hr
  have h2 := h m hm
  omega

theorem NewestRuns.close {t : RunTable} (h : t.NewestRuns) (r : ℕ) : (t.close r).NewestRuns := by
  intro m hm
  exact h m (running_of_close hm).1

theorem NewestRuns.addState {t : RunTable} (h : t.NewestRuns) (r : ℕ) (row : BotStateRow) :
    (t.addState r row).NewestRuns := by
  intro m hm
  rw [addState_running] at hm
  exact h m hm

end RunTable

/-- The workers that have been started on one database, and what is committed in it. -/
structure Fleet (ω : Type u) where
  table : RunTable
  worker : ω → WorkerPhase

inductive FleetEvent (ω : Type u)
  | quiet (w : ω)
  | selected (w : ω)
  | started (w : ω) (run : ℕ) (carried : Option BotState)
  | refused (w : ω) (active : ℕ)
  | raised (w : ω)
  | stopped (w : ω) (run : ℕ)
  | killed (w : ω)
  | triggered (run : ℕ) (trigger : Trigger)

def FleetEvent.worker : FleetEvent ω → Option ω
  | .quiet w | .selected w | .started w _ _ | .refused w _ | .raised w | .stopped w _
  | .killed w => some w
  | .triggered _ _ => none

section
variable {ω : Type u}

namespace Fleet

def fresh (table : RunTable) : Fleet ω := ⟨table, fun _ => .absent⟩

/-- No transaction of another worker holds the row of the run. -/
def FreeFor (f : Fleet ω) (w : ω) (r : ℕ) : Prop := ∀ v, v ≠ w → r ∉ (f.worker v).locks

/-- At most one run is running, the newest one. What is about to be committed closes it, and
each worker has a run of its own, which is running as long as it is the newest. -/
structure Owned (f : Fleet ω) : Prop where
  newest : f.table.NewestRuns
  alone : ∀ v w, (f.worker v).inserted → (f.worker w).inserted → v = w
  covered : ∀ w c updated, f.worker w = .begun (.inserted c updated) →
    ∀ r ∈ f.table.running, r ∈ updated
  older : ∀ w r, (f.worker w).run = some r → r < f.table.size
  running : ∀ w r, (f.worker w).run = some r → r + 1 = f.table.size →
    (f.table.run r).status = .running
  apart : ∀ v w r, (f.worker v).run = some r → (f.worker w).run = some r → v = w

namespace Owned

variable {f : Fleet ω}

theorem fresh {t : RunTable} (h : t.NewestRuns) : (Fleet.fresh t : Fleet ω).Owned where
  newest := h
  alone _ _ h := h.elim
  covered _ _ _ h := by cases h
  older _ _ h := by cases h
  running _ _ h := by cases h
  apart _ _ _ h := by cases h

theorem trigger (h : f.Owned) (r : ℕ) (row : BotStateRow) :
    Owned { f with table := f.table.addState r row } := by
  refine ⟨h.newest.addState r row, h.alone, ?_, h.older, ?_, h.apart⟩
  · intro w c updated hw m hm
    rw [RunTable.addState_running] at hm
    exact h.covered w c updated hw m hm
  · intro w m hw hnew
    rw [RunTable.addState_status]
    exact h.running w m hw hnew

/-- The run of a worker is running just as long as no other one has been started. -/
theorem running_iff (h : f.Owned) (hw : (f.worker w).run = some r) :
    (f.table.run r).status = .running ↔ r + 1 = f.table.size := by
  constructor
  · intro hr
    exact h.newest r (f.table.mem_running.mpr ⟨h.older w r hw, hr⟩)
  · exact h.running w r hw

end Owned

/-- Of what is running, a worker has found all that was not started since its last look. -/
def FoundAll (es : List (FleetEvent ω)) (f : Fleet ω) (w : ω) (known : List ℕ) : Prop :=
  ∃ before since, es = before ++ .selected w :: since ∧ .selected w ∉ since ∧
    ∀ r ∈ f.table.running, r ∈ known ∨ ∃ v c, .started v r c ∈ since

/-- Another start has committed the run, since the last look of the worker at the running ones. -/
def Overtaken (es : List (FleetEvent ω)) (w : ω) (r : ℕ) : Prop :=
  ∃ before since, es = before ++ .selected w :: since ∧ .selected w ∉ since ∧
    ∃ v c, .started v r c ∈ since

/-- What is to be told of a fleet by its past. -/
structure Told (first : ℕ) (es : List (FleetEvent ω)) (f : Fleet ω) : Prop where
  owned : f.Owned
  older : ∀ w n c, .started w n c ∈ es → n < f.table.size
  known : ∀ n, first ≤ n → n < f.table.size → ∃ w c, .started w n c ∈ es
  own : ∀ w r, (f.worker w).run = some r → first ≤ r
  found : ∀ w known, (f.worker w).found = some known → FoundAll es f w known

namespace Told

variable {f : Fleet ω} {first : ℕ} {es : List (FleetEvent ω)}

theorem fresh {t : RunTable} (h : t.NewestRuns) : Told t.size [] (Fleet.fresh t : Fleet ω) where
  owned := .fresh h
  older _ _ _ h := by cases h
  known _ hle hlt := absurd (hle.trans_lt hlt) (lt_irrefl _)
  own _ _ h := by cases h
  found _ _ h := by cases h

/-- A run is the newest just if none has been started after it. -/
theorem newest_iff (h : Told first es f) (hw : (f.worker w).run = some r) :
    r + 1 = f.table.size ↔ ∀ v n c, .started v n c ∈ es → n ≤ r := by
  constructor
  · intro hnew v n c hstarted
    have hlt := h.older v n c hstarted
    omega
  · intro hlast
    have hlt := h.owned.older w r hw
    by_contra hne
    have hfirst := h.own w r hw
    obtain ⟨v, c, hstarted⟩ := h.known (f.table.size - 1) (by omega) (by omega)
    have hle := hlast v _ c hstarted
    omega

end Told

variable [DecidableEq ω]

def put (f : Fleet ω) (w : ω) (p : WorkerPhase) : Fleet ω :=
  { f with worker := Function.update f.worker w p }

end Fleet

variable [DecidableEq ω]

/-- One statement of one worker. An update waits for the transaction that holds the row, and an
insertion for the one that has inserted or closed a running run. -/
inductive FleetStep : Fleet ω → FleetEvent ω → Fleet ω → Prop
  | boot {f : Fleet ω} {w : ω} (hw : f.worker w = .absent) :
      FleetStep f (.quiet w) (f.put w (.begun .begin))
  | findPrevious {f : Fleet ω} {w : ω} (hw : f.worker w = .begun .begin) :
      FleetStep f (.quiet w) (f.put w (.begun (.foundPrevious f.table.getMostRecent)))
  | readState {f : Fleet ω} {w : ω} {previous : Option ℕ}
      (hw : f.worker w = .begun (.foundPrevious previous)) :
      FleetStep f (.quiet w) (f.put w (.begun (.resolved (carriedOver f.table previous))))
  | selectOrphans {f : Fleet ω} {w : ω} {c : Option BotState}
      (hw : f.worker w = .begun (.resolved c)) :
      FleetStep f (.selected w) (f.put w (.begun (.closing c f.table.running [])))
  | closeOrphan {f : Fleet ω} {w : ω} {c : Option BotState} {r : ℕ} {pending updated : List ℕ}
      (hw : f.worker w = .begun (.closing c (r :: pending) updated)) (hfree : f.FreeFor w r) :
      FleetStep f (.quiet w) (f.put w (.begun (.closing c pending (r :: updated))))
  | insertRun {f : Fleet ω} {w : ω} {c : Option BotState} {updated : List ℕ}
      (hw : f.worker w = .begun (.closing c [] updated)) (halone : ∀ v, ¬(f.worker v).inserted)
      (hclosed : ∀ r ∈ f.table.running, r ∈ updated) :
      FleetStep f (.quiet w) (f.put w (.begun (.inserted c updated)))
  | conflict {f : Fleet ω} {w : ω} {c : Option BotState} {r : ℕ} {updated : List ℕ}
      (hw : f.worker w = .begun (.closing c [] updated)) (hr : r ∈ f.table.running)
      (hopen : r ∉ updated) (hfree : f.FreeFor w r) :
      FleetStep f (.quiet w) (f.put w (.conflicted updated))
  -- The conflict is explained by a run that is still running, or it is not.
  | refuse {f : Fleet ω} {w : ω} {active : ℕ} {updated : List ℕ}
      (hw : f.worker w = .conflicted updated) (hactive : f.table.getActive updated = some active) :
      FleetStep f (.refused w active) (f.put w .absent)
  | reraise {f : Fleet ω} {w : ω} {updated : List ℕ} (hw : f.worker w = .conflicted updated)
      (hactive : f.table.getActive updated = none) : FleetStep f (.raised w) (f.put w .absent)
  | commitStart {f : Fleet ω} {w : ω} {c : Option BotState} {updated : List ℕ}
      (hw : f.worker w = .begun (.inserted c updated)) :
      FleetStep f (.started w f.table.size c)
        ⟨f.table.start updated (carriedRows c),
          Function.update f.worker w (.begun (.done f.table.size c))⟩
  | flushClose {f : Fleet ω} {w : ω} {r : ℕ} {c : Option BotState}
      (hw : f.worker w = .begun (.done r c)) (hfree : f.FreeFor w r) :
      FleetStep f (.quiet w) (f.put w (.closing r))
  | commitClose {f : Fleet ω} {w : ω} {r : ℕ} (hw : f.worker w = .closing r) :
      FleetStep f (.stopped w r) ⟨f.table.close r, Function.update f.worker w .absent⟩
  -- A process that is killed takes its open transaction with it.
  | kill {f : Fleet ω} {w : ω} (hw : f.worker w ≠ .absent) :
      FleetStep f (.killed w) (f.put w .absent)
  | trigger {f : Fleet ω} {r : ℕ} {trigger : Trigger} {current : BotState}
      (hr : r < f.table.size) (hfree : ∀ w, r ∉ (f.worker w).locks)
      (hallowed : EmergencyStopService.admission (f.table.view r) trigger.target
        trigger.requireCurrentIn = .ok current) :
      FleetStep f (.triggered r trigger)
        { f with table := f.table.addState r (EmergencyStopService.newRow current trigger.target) }

namespace Fleet

@[simp] theorem put_table (f : Fleet ω) (w : ω) (p : WorkerPhase) : (f.put w p).table = f.table :=
  rfl

theorem put_worker (f : Fleet ω) (w v : ω) (p : WorkerPhase) :
    (f.put w p).worker v = if v = w then p else f.worker v :=
  Function.update_apply _ _ _ _

namespace Owned

variable {f g : Fleet ω}

/-- A worker that moves on without a commit keeps its run or leaves it. -/
theorem put (h : f.Owned) (hins : p.inserted → (∀ v, ¬(f.worker v).inserted) ∧
      ∀ c updated, p = .begun (.inserted c updated) → ∀ r ∈ f.table.running, r ∈ updated)
    (hrun : ∀ r, p.run = some r → (f.worker w).run = some r) : (f.put w p).Owned := by
  have hruns : ∀ v r, ((f.put w p).worker v).run = some r → (f.worker v).run = some r := by
    intro v r hv
    rw [put_worker] at hv
    split at hv
    · rename_i hvw
      rw [hvw]
      exact hrun r hv
    · exact hv
  refine ⟨h.newest, ?_, ?_, fun v r hv => h.older v r (hruns v r hv),
    fun v r hv => h.running v r (hruns v r hv),
    fun u v r hu hv => h.apart u v r (hruns u r hu) (hruns v r hv)⟩
  · intro u v hu hv
    rw [put_worker] at hu hv
    split at hu <;> split at hv
    · rename_i hu' hv'
      rw [hu', hv']
    · exact absurd hv ((hins hu).1 v)
    · exact absurd hu ((hins hv).1 u)
    · exact h.alone u v hu hv
  · intro v c updated hv
    rw [put_worker] at hv
    split at hv
    · exact (hins (by rw [hv]; trivial)).2 c updated hv
    · exact h.covered v c updated hv

/-- The commit of a start. -/
theorem commitStart (h : f.Owned) (hw : f.worker w = .begun (.inserted c updated)) :
    Owned ⟨f.table.start updated (carriedRows c),
      Function.update f.worker w (.begun (.done f.table.size c))⟩ := by
  have hins : (f.worker w).inserted := by
    rw [hw]
    trivial
  refine ⟨.start (h.covered w c updated hw) _, ?_, ?_, ?_, ?_, ?_⟩
  · intro u v hu hv
    simp only [Function.update_apply] at hu hv
    split at hu
    · exact hu.elim
    · split at hv
      · exact hv.elim
      · exact h.alone u v hu hv
  · intro v c' updated' hv
    simp only [Function.update_apply] at hv
    split at hv
    · cases hv
    · rename_i hne
      exact absurd (h.alone v w (by rw [hv]; trivial) hins) hne
  · intro v r hv
    simp only [Function.update_apply] at hv
    split at hv
    · obtain rfl := Option.some.inj hv
      exact Nat.lt_succ_self _
    · exact (h.older v r hv).trans (Nat.lt_succ_self _)
  · intro v r hv hnew
    simp only [Function.update_apply] at hv
    split at hv
    · obtain rfl := Option.some.inj hv
      exact f.table.start_status_new _ _
    · have := h.older v r hv
      simp only [RunTable.start] at hnew
      omega
  · intro u v r hu hv
    simp only [Function.update_apply] at hu hv
    split at hu <;> split at hv
    · rename_i hu' hv'
      rw [hu', hv']
    · obtain rfl := Option.some.inj hu
      exact absurd (h.older v _ hv) (lt_irrefl _)
    · obtain rfl := Option.some.inj hv
      exact absurd (h.older u _ hu) (lt_irrefl _)
    · exact h.apart u v r hu hv

/-- The commit of a shutdown. -/
theorem commitClose (h : f.Owned) (hw : f.worker w = .closing r) :
    Owned ⟨f.table.close r, Function.update f.worker w .absent⟩ := by
  have hleft : (f.put w .absent).Owned := h.put False.elim (fun _ hr => by cases hr)
  refine ⟨h.newest.close r, hleft.alone, ?_, hleft.older, ?_, hleft.apart⟩
  · intro v c updated hv m hm
    exact hleft.covered v c updated hv m (RunTable.running_of_close hm).1
  · intro v m hv hnew
    rw [RunTable.close_status]
    split
    · rename_i hmr
      subst hmr
      have hvw : v ≠ w := by
        rintro rfl
        simp only [Function.update_self] at hv
        cases hv
      simp only [Function.update_of_ne hvw] at hv
      exact absurd (h.apart v w m hv (by rw [hw]; rfl)) hvw
    · exact hleft.running v m hv hnew

theorem step {e : FleetEvent ω} (h : f.Owned) (hs : FleetStep f e g) : g.Owned := by
  cases hs with
  | boot | findPrevious | readState | selectOrphans | closeOrphan | conflict | refuse | reraise
  | kill => exact h.put False.elim (fun _ hr => by cases hr)
  | insertRun hw halone hclosed =>
    refine h.put (fun _ => ⟨halone, ?_⟩) (fun _ hr => by cases hr)
    rintro c updated ⟨⟩
    exact hclosed
  | commitStart hw => exact h.commitStart hw
  | flushClose hw => exact h.put False.elim (fun _ hr => by rw [hw]; exact hr)
  | commitClose hw => exact h.commitClose hw
  | trigger => exact h.trigger _ _

end Owned

theorem worker_of_step {e : FleetEvent ω} (hs : FleetStep f e g) (h : e.worker ≠ some w) :
    g.worker w = f.worker w := by
  cases hs with
  | trigger => rfl
  | commitStart | commitClose =>
    exact Function.update_of_ne (fun hw => h (congrArg some hw.symm)) _ _
  | boot | findPrevious | readState | selectOrphans | closeOrphan | insertRun | conflict | refuse
  | reraise | flushClose | kill =>
    exact Function.update_of_ne (fun hw => h (congrArg some hw.symm)) _ _

theorem size_of_step {e : FleetEvent ω} (hs : FleetStep f e g) :
    (∃ w c, e = .started w f.table.size c ∧ g.table.size = f.table.size + 1) ∨
      (∀ w n c, e ≠ .started w n c) ∧ g.table.size = f.table.size := by
  cases hs with
  | commitStart => exact .inl ⟨_, _, rfl, rfl⟩
  | trigger | commitClose | boot | findPrevious | readState | selectOrphans | closeOrphan
  | insertRun | conflict | refuse | reraise | flushClose | kill =>
    exact .inr ⟨(fun _ _ _ he => by cases he), rfl⟩

/-- Only a start makes a run running. -/
theorem running_of_step {e : FleetEvent ω} (hs : FleetStep f e g) (hr : r ∈ g.table.running) :
    r ∈ f.table.running ∨ ∃ w c, e = .started w r c := by
  cases hs with
  | commitStart =>
    rw [RunTable.mem_running] at hr
    obtain ⟨hlt, hs⟩ := hr
    simp only [RunTable.start] at hlt hs
    split at hs
    · rename_i hnew
      rw [hnew]
      exact .inr ⟨_, _, rfl⟩
    · rename_i hold
      split at hs
      · cases hs
      · exact .inl (f.table.mem_running.mpr ⟨by omega, hs⟩)
  | commitClose => exact .inl (RunTable.running_of_close hr).1
  | trigger =>
    rw [RunTable.addState_running] at hr
    exact .inl hr
  | boot | findPrevious | readState | selectOrphans | closeOrphan | insertRun | conflict | refuse
  | reraise | flushClose | kill => exact .inl hr

/-- What a start has found is what was running when it looked. A conflict is with none of it. -/
theorem found_of_step {e : FleetEvent ω} (h : f.Owned) (hs : FleetStep f e g)
    (hfound : (g.worker w).found = some known) :
    (e = .selected w ∧ known = f.table.running) ∨
      (e ≠ .selected w ∧ ∃ earlier, (f.worker w).found = some earlier ∧
        ∀ r ∈ f.table.running, r ∈ earlier → r ∈ known) := by
  by_cases hactor : e.worker = some w
  · cases hs with
    | trigger => cases hactor
    | commitStart | commitClose | boot | findPrevious | readState | refuse | reraise | flushClose
    | kill =>
      obtain rfl := Option.some.inj hactor
      simp only [put, Function.update_self] at hfound
      cases hfound
    | selectOrphans =>
      obtain rfl := Option.some.inj hactor
      simp only [put, Function.update_self, WorkerPhase.found, List.append_nil] at hfound
      exact .inl ⟨rfl, (Option.some.inj hfound).symm⟩
    | closeOrphan hw =>
      obtain rfl := Option.some.inj hactor
      simp only [put, Function.update_self, WorkerPhase.found] at hfound
      obtain rfl := Option.some.inj hfound
      refine .inr ⟨nofun, _, by rw [hw]; rfl, fun r _ hr => ?_⟩
      simp only [List.cons_append, List.mem_cons, List.mem_append] at hr ⊢
      tauto
    | insertRun hw =>
      obtain rfl := Option.some.inj hactor
      simp only [put, Function.update_self, WorkerPhase.found] at hfound
      obtain rfl := Option.some.inj hfound
      exact .inr ⟨nofun, _, by rw [hw]; rfl, fun r _ hr => hr⟩
    | conflict hw hrunning hopen =>
      obtain rfl := Option.some.inj hactor
      refine .inr ⟨nofun, _, by rw [hw]; rfl, fun m hm hfound' => ?_⟩
      rw [h.newest.eq hm hrunning] at hfound'
      exact absurd hfound' hopen
  · rw [worker_of_step hs hactor] at hfound
    refine .inr ⟨?_, known, hfound, fun _ _ hr => hr⟩
    rintro rfl
    exact hactor rfl

theorem run_of_step {e : FleetEvent ω} (hs : FleetStep f e g) (hrun : (g.worker w).run = some r) :
    (f.worker w).run = some r ∨ r = f.table.size := by
  by_cases hactor : e.worker = some w
  · cases hs with
    | trigger => cases hactor
    | commitStart =>
      obtain rfl := Option.some.inj hactor
      simp only [Function.update_self, WorkerPhase.run] at hrun
      exact .inr (Option.some.inj hrun).symm
    | flushClose hw =>
      obtain rfl := Option.some.inj hactor
      simp only [put, Function.update_self, WorkerPhase.run] at hrun
      exact .inl (by rw [hw]; exact hrun)
    | commitClose | boot | findPrevious | readState | selectOrphans | closeOrphan | insertRun
    | conflict | refuse | reraise | kill =>
      obtain rfl := Option.some.inj hactor
      simp only [put, Function.update_self] at hrun
      cases hrun
  · rw [worker_of_step hs hactor] at hrun
    exact .inl hrun

theorem FoundAll.step {e : FleetEvent ω} (h : f.Owned) (hs : FleetStep f e g)
    (hall : ∀ known, (f.worker w).found = some known → FoundAll es f w known)
    (hfound : (g.worker w).found = some known) : FoundAll (es ++ [e]) g w known := by
  rcases found_of_step h hs hfound with ⟨rfl, rfl⟩ | ⟨hne, earlier, hearlier, hkept⟩
  · refine ⟨es, [], rfl, List.not_mem_nil, fun r hr => .inl ?_⟩
    refine (running_of_step hs hr).resolve_right ?_
    rintro ⟨v, c, he⟩
    cases he
  · obtain ⟨before, since, rfl, hsince, hruns⟩ := hall earlier hearlier
    refine ⟨before, since ++ [e], by simp, ?_, fun r hr => ?_⟩
    · simpa using ⟨hsince, hne.symm⟩
    · rcases running_of_step hs hr with hold | ⟨v, c, rfl⟩
      · rcases hruns r hold with hr' | ⟨v, c, hstarted⟩
        · exact .inl (hkept r hold hr')
        · exact .inr ⟨v, c, List.mem_append_left _ hstarted⟩
      · exact .inr ⟨v, c, by simp⟩

namespace Told

variable {first : ℕ} {es : List (FleetEvent ω)}

theorem step {e : FleetEvent ω} (h : Told first es f) (hle : first ≤ f.table.size)
    (hs : FleetStep f e g) : Told first (es ++ [e]) g := by
  refine ⟨h.owned.step hs, ?_, ?_, ?_, fun w known => .step h.owned hs (h.found w)⟩
  · intro w n c hstarted
    rcases List.mem_append.mp hstarted with hold | hnew
    · have hlt := h.older w n c hold
      rcases size_of_step hs with ⟨v, c', -, hsize⟩ | ⟨-, hsize⟩ <;> omega
    · rw [List.mem_singleton] at hnew
      rcases size_of_step hs with ⟨v, c', he, hsize⟩ | ⟨hne, -⟩
      · cases hnew.trans he
        omega
      · exact absurd hnew.symm (hne w n c)
  · intro n hn hlt
    by_cases hold : n < f.table.size
    · obtain ⟨w, c, hstarted⟩ := h.known n hn hold
      exact ⟨w, c, List.mem_append_left _ hstarted⟩
    · rcases size_of_step hs with ⟨v, c, rfl, hsize⟩ | ⟨-, hsize⟩
      · obtain rfl : n = f.table.size := by omega
        exact ⟨v, c, by simp⟩
      · omega
  · intro w r hrun
    rcases run_of_step hs hrun with hold | rfl
    · exact h.own w r hold
    · exact hle

theorem of_run {t : RunTable} (ht : t.NewestRuns) (hr : Run FleetStep (Fleet.fresh t) es f) :
    Told t.size es f ∧ t.size ≤ f.table.size := by
  refine hr.invariant_trace (I := fun es f => Told t.size es f ∧ t.size ≤ f.table.size)
    ⟨.fresh ht, le_rfl⟩ ?_
  rintro es f e g ⟨htold, hle⟩ hs
  refine ⟨htold.step hle hs, ?_⟩
  rcases size_of_step hs with ⟨w, c, -, hsize⟩ | ⟨-, hsize⟩ <;> omega

/-- What refuses a start. -/
theorem refused (h : Told first es f) (hs : FleetStep f (.refused w r) g) : Overtaken es w r := by
  cases hs with
  | refuse hw hactive =>
    obtain ⟨before, since, hes, hsince, hruns⟩ := h.found w [] (by rw [hw]; rfl)
    have hrunning : r ∈ f.table.running :=
      (List.mem_filter.mp (List.mem_of_getLast? hactive)).1
    exact ⟨before, since, hes, hsince, (hruns r hrunning).resolve_left List.not_mem_nil⟩

end Told

theorem refusals {es : List (FleetEvent ω)} (ht : t.NewestRuns)
    (hr : Run FleetStep (Fleet.fresh t) es f) :
    EachAfter (fun before e => ∀ w r, e = .refused w r → Overtaken before w r) es := by
  induction hr with
  | nil => exact .nil
  | snoc hr hs ih =>
    refine ih.snoc ?_
    rintro w r rfl
    exact (Told.of_run ht hr).1.refused hs

namespace Rolling

/-- Two workers start at once where the run of a dead one is still running. -/
def trace : List (FleetEvent Bool) :=
  [.quiet false, .quiet true, .quiet false, .quiet true, .quiet false, .quiet true,
    .selected false, .selected true, .quiet false, .quiet false, .started false 1 none,
    .quiet true, .quiet true, .refused true 1]

/-- The one is up, and the other is gone. -/
def rolled : Fleet Bool where
  table := crashedTable.start [0] []
  worker w := if w then .absent else .begun (.done 1 none)

theorem run : Run FleetStep (Fleet.fresh crashedTable) trace rolled := by
  have hrun : ∃ f, Run FleetStep (Fleet.fresh crashedTable) trace f ∧ f.table = rolled.table ∧
      ∀ w, f.worker w = rolled.worker w := by
    refine ⟨_, .cons (.boot rfl) (.cons (.boot rfl) (.cons (.findPrevious rfl)
      (.cons (.findPrevious rfl) (.cons (.readState rfl) (.cons (.readState rfl)
      (.cons (.selectOrphans rfl) (.cons (.selectOrphans rfl)
      (.cons (.closeOrphan (r := 0) rfl ?_) (.cons (.insertRun rfl ?_ ?_) (.cons (.commitStart rfl)
      (.cons (.closeOrphan (r := 0) rfl ?_) (.cons (.conflict (r := 1) rfl ?_ ?_ ?_)
      (.cons (.refuse rfl rfl) (.nil _)))))))))))))), rfl, ?_⟩
    · rintro (_ | _) hv
      · exact absurd rfl hv
      · exact List.not_mem_nil
    · rintro (_ | _)
      · exact id
      · exact id
    · decide
    · rintro (_ | _) hv
      · exact List.not_mem_nil
      · exact absurd rfl hv
    · decide
    · decide
    · rintro (_ | _) hv
      · exact List.not_mem_nil
      · exact absurd rfl hv
    · rintro (_ | _)
      · rfl
      · rfl
  obtain ⟨⟨table, worker⟩, hrun, rfl, hworker⟩ := hrun
  obtain rfl : worker = rolled.worker := funext hworker
  exact hrun

end Rolling

/-- Over all starts, shutdowns and deaths of workers, in any order: one run at most is running, the
newest. The run of a worker stays so until another worker has been started, and only so long can it
be stopped from outside. A start is refused just for a run that another one has committed since its
last look. -/
theorem workers_hold (t : RunTable) (ht : t.NewestRuns) (es : List (FleetEvent ω)) (f : Fleet ω)
    (hr : Run FleetStep (Fleet.fresh t) es f) :
    f.table.NewestRuns ∧
    (∀ w r, (f.worker w).run = some r →
      ((f.table.run r).status = .running ↔ ∀ v n c, .started v n c ∈ es → n ≤ r) ∧
      ∀ target required,
        (∃ current, EmergencyStopService.admission (f.table.view r) target required = .ok current) ↔
          (∀ v n c, .started v n c ∈ es → n ≤ r) ∧
            ∃ current, resolvePersistedState (latestState (f.table.run r).states) = some current ∧
              (∀ states ∈ required, current ∈ states) ∧ current.canTransitionTo target) ∧
    EachAfter (fun before e => ∀ w r, e = .refused w r → Overtaken before w r) es := by
  obtain ⟨htold, -⟩ := Told.of_run ht hr
  refine ⟨htold.owned.newest, fun w r hw => ?_, refusals ht hr⟩
  have hrunning : (f.table.run r).status = .running ↔ ∀ v n c, .started v n c ∈ es → n ≤ r :=
    (htold.owned.running_iff hw).trans (htold.newest_iff hw)
  refine ⟨hrunning, fun target required => ?_⟩
  simp only [EmergencyStopService.admission_ok_iff, exists_and_left, ← hrunning]
  exact and_congr_left fun _ => Option.some_inj

theorem rolled_holds : Rolling.rolled.table.NewestRuns ∧
    (∀ w r, (Rolling.rolled.worker w).run = some r →
      ((Rolling.rolled.table.run r).status = .running ↔
        ∀ v n c, .started v n c ∈ Rolling.trace → n ≤ r) ∧
      ∀ target required,
        (∃ current, EmergencyStopService.admission (Rolling.rolled.table.view r) target required =
          .ok current) ↔
          (∀ v n c, .started v n c ∈ Rolling.trace → n ≤ r) ∧
            ∃ current, resolvePersistedState (latestState (Rolling.rolled.table.run r).states) =
              some current ∧
              (∀ states ∈ required, current ∈ states) ∧ current.canTransitionTo target) ∧
    EachAfter (fun before e => ∀ w r, e = .refused w r → Overtaken before w r) Rolling.trace :=
  workers_hold crashedTable crashedTable_newest Rolling.trace Rolling.rolled Rolling.run

end Fleet

end

end FuturesBot
