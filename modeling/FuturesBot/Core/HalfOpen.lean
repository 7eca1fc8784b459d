import FuturesBot.Core.BreakerRuns
import Mathlib.Logic.Function.Basic

namespace FuturesBot
open Lib

variable {ω ε α : Type} {W : RetryWorld ω}

/-- A call is let through by a circuit that is not closed. -/
def CircuitBreaker.Probes (W : RetryWorld ω) (b : CircuitBreaker) (w : ω) : Prop :=
  b.state = .halfOpen ∨ b.state = .open ∧ ∃ opened ∈ b.openedAt,
    b.config.resetTimeoutSeconds ≤ (W.monotonic w).1 - opened

theorem CircuitBreaker.probes_of_ok {b b' : CircuitBreaker}
    (h : b.beforeCall (ε := ε) W w = (.ok checkedAt, b', w')) :
    b.Probes W w ∧ b'.state = .halfOpen ∨ b.state = .closed ∧ b'.state = .closed := by
  cases admission h with
  | passes hstate =>
    rcases hs : b.state with _ | _ | _
    · exact .inr ⟨rfl, rfl⟩
    · exact absurd hs hstate
    · exact .inl ⟨.inl hs, rfl⟩
  | probes hopen hopened hlate => exact .inl ⟨.inr ⟨hopen, _, hopened, hlate⟩, rfl⟩

theorem CircuitBreaker.not_probes_of_error {b b' : CircuitBreaker}
    (h : b.beforeCall (ε := ε) W w = (.error e, b', w')) : ¬b.Probes W w := by
  rintro (hhalf | ⟨-, opened, hknown, hlate⟩)
  · cases admission h with
    | asserts hopen => cases hopen.symm.trans hhalf
    | refuses hopen => cases hopen.symm.trans hhalf
  · cases admission h with
    | asserts _ hopened => cases hopened.symm.trans hknown
    | refuses _ hopened hearly =>
      cases hopened.symm.trans hknown
      exact absurd hlate (not_le.mpr hearly)

/-- Calls of `retry_async` that share a breaker, each where it awaits. It is also kept how often
the circuit has opened, and how often it had when the operation of a call was let through. -/
structure Gathered (ω ε α : Type) where
  shared : RetryState ω ε
  tasks : ℕ → RetryTask ε α := fun _ => .starting
  openings : ℕ := 0
  admittedIn : ℕ → ℕ := fun _ => 0

/-- A task goes on from its start or its sleep, or from the end of its operation, each in the
world as it is by then. -/
inductive Resumption (ω ε α : Type)
  | enters (i : ℕ) (w : ω)
  | completes (i : ℕ) (outcome : Except ε α) (w : ω)

/-- The attempt that a task goes on with, and the error before it. -/
def RetryTask.nextAttempt : RetryTask ε α → Option (ℕ × Option ε)
  | .starting => some (0, none)
  | .sleeping attempt _ e => some (attempt + 1, some e)
  | .awaitingOperation _ _ | .finished _ => none

def RetryTask.operates : RetryTask ε α → Bool
  | .awaitingOperation _ _ => true
  | .starting | .sleeping _ _ _ | .finished _ => false

namespace Gathered

variable {g g' : Gathered ω ε α} {calls : ℕ → RetryCall ω ε α}

def circuit (g : Gathered ω ε α) : Option CircuitState := g.shared.breaker.map (·.state)

/-- A task has come to its next await and left the breaker behind. -/
def left (g : Gathered ω ε α) (i : ℕ) (r : RetryTask ε α × RetryState ω ε) : Gathered ω ε α :=
  let openings := if g.circuit ≠ some .open ∧ r.2.breaker.map (·.state) = some .open
    then g.openings + 1 else g.openings
  { shared := r.2
    tasks := Function.update g.tasks i r.1
    openings := openings
    admittedIn := if r.1.operates then Function.update g.admittedIn i openings else g.admittedIn }

def resume (W : RetryWorld ω) (calls : ℕ → RetryCall ω ε α) (g : Gathered ω ε α) :
    Resumption ω ε α → Option (Gathered ω ε α)
  | .enters i w =>
    match (g.tasks i).nextAttempt with
    | some (attempt, lastExc) =>
      some (g.left i ((calls i).enterLoop W attempt lastExc { g.shared with world := w }))
    | none => none
  | .completes i outcome w =>
    match g.tasks i with
    | .awaitingOperation attempt checkedAt =>
      some (g.left i ((calls i).operationDone W attempt checkedAt outcome
        { g.shared with world := w }))
    | _ => none

/-- The operation of a call is in flight. -/
def InFlight (g : Gathered ω ε α) (i : ℕ) : Prop := (g.tasks i).operates

/-- The circuit has not opened since the operation was let through. -/
def Fresh (g : Gathered ω ε α) (i : ℕ) : Prop := g.admittedIn i = g.openings

/-- At most one operation is in flight while the circuit is half open. -/
def OneProbe (g : Gathered ω ε α) : Prop :=
  g.circuit = some .halfOpen → ∀ i j, g.InFlight i → g.InFlight j → i = j

/-- What closes the circuit is an operation that was let through after it opened. -/
def FreshlyCloses (g : Gathered ω ε α) : Resumption ω ε α → Prop
  | .completes i (.ok _) _ => g.circuit ≠ some .closed → g.Fresh i
  | _ => True

/-- The task, resumed in the world, is let through by a circuit that is not closed. -/
def Probes (W : RetryWorld ω) (calls : ℕ → RetryCall ω ε α) (g : Gathered ω ε α) (i : ℕ) (w : ω) :
    Prop :=
  ∃ attempt lastExc b, (g.tasks i).nextAttempt = some (attempt, lastExc) ∧
    (attempt : ℤ) < (calls i).config.maxAttempts ∧ g.shared.breaker = some b ∧ b.Probes W w

/-- A probe finds no other operation in flight, and none succeeds while the circuit is open. -/
def KeepsToProbes (W : RetryWorld ω) (calls : ℕ → RetryCall ω ε α) (g : Gathered ω ε α) :
    Resumption ω ε α → Prop
  | .enters i w => g.Probes W calls i w → ∀ j, ¬g.InFlight j
  | .completes _ (.ok _) _ => g.circuit ≠ some .open
  | .completes _ (.error _) _ => True

theorem inFlight_left (g : Gathered ω ε α) (i : ℕ) (r : RetryTask ε α × RetryState ω ε) (j : ℕ) :
    (g.left i r).InFlight j ↔ if j = i then r.1.operates = true else g.InFlight j := by
  unfold InFlight left
  dsimp only
  by_cases h : j = i
  · subst h
    simp
  · simp [h]

/-- What a resumption changes of what is in flight, of the circuit and of its openings. -/
inductive Effect (W : RetryWorld ω) (calls : ℕ → RetryCall ω ε α) (g g' : Gathered ω ε α) :
    Resumption ω ε α → Prop
  | refused (hflight : ∀ j, g'.InFlight j ↔ g.InFlight j) (hcircuit : g'.circuit = g.circuit)
      (hopenings : g'.openings = g.openings) (hadmitted : g'.admittedIn = g.admittedIn)
      (hprobe : ¬g.Probes W calls i w) : Effect W calls g g' (.enters i w)
  | admitted (hnew : ¬g.InFlight i) (hflight : ∀ j, g'.InFlight j ↔ j = i ∨ g.InFlight j)
      (hopenings : g'.openings = g.openings)
      (hadmitted : g'.admittedIn = Function.update g.admittedIn i g.openings)
      (hprobe : g.Probes W calls i w ∧ g'.circuit = some .halfOpen ∨
        ¬g.Probes W calls i w ∧ g.circuit = some .closed ∧ g'.circuit = some .closed) :
      Effect W calls g g' (.enters i w)
  | succeeded (hold : g.InFlight i) (hflight : ∀ j, g'.InFlight j ↔ j ≠ i ∧ g.InFlight j)
      (hcircuit : g'.circuit = some .closed) (hopenings : g'.openings = g.openings)
      (hadmitted : g'.admittedIn = g.admittedIn) :
      Effect W calls g g' (.completes i (.ok result) w)
  | failed (hold : g.InFlight i) (hflight : ∀ j, g'.InFlight j ↔ j ≠ i ∧ g.InFlight j)
      (hcircuit : g'.circuit = some .open ∧
          g'.openings = (if g.circuit = some .open then g.openings else g.openings + 1) ∨
        g'.circuit = some .closed ∧ g'.openings = g.openings)
      (hadmitted : g'.admittedIn = g.admittedIn) :
      Effect W calls g g' (.completes i (.error e) w)

theorem nextAttempt_not_inFlight (h : (g.tasks i).nextAttempt = some next) : ¬g.InFlight i := by
  unfold InFlight
  rcases htask : g.tasks i with _ | _ | _ | _ <;> simp [RetryTask.operates]
  rw [htask] at h
  cases h

/-- A task that the breaker does not let through leaves it alone. -/
theorem refused_effect {s : RetryState ω ε} (hnext : (g.tasks i).nextAttempt = some next)
    (hs : s.breaker = g.shared.breaker) (hprobe : ¬g.Probes W calls i w)
    (result : Except (RetryError ε) α) :
    Effect W calls g (g.left i (.finished result, s)) (.enters i w) := by
  have hcircuit : (g.left i (.finished result, s)).circuit = g.circuit := by
    simp [circuit, left, hs]
  refine .refused ?_ hcircuit ?_ rfl hprobe
  · intro j
    rw [inFlight_left]
    split
    · rename_i hj
      subst hj
      exact iff_of_false (by simp [RetryTask.operates]) (nextAttempt_not_inFlight hnext)
    · rfl
  · simp only [left, hs]
    exact if_neg (fun hopen => hopen.1 hopen.2)

/-- One that is let through leaves the circuit half open or closed. -/
theorem admitted_effect {s : RetryState ω ε} (hnext : (g.tasks i).nextAttempt = some next)
    (hprobe : g.Probes W calls i w ∧ s.breaker.map (·.state) = some .halfOpen ∨
      ¬g.Probes W calls i w ∧ g.circuit = some .closed ∧
        s.breaker.map (·.state) = some .closed) (attempt : ℕ) (checkedAt : Option Seconds) :
    Effect W calls g (g.left i (.awaitingOperation attempt checkedAt, s)) (.enters i w) := by
  have hopenings : (g.left i (.awaitingOperation attempt checkedAt, s)).openings = g.openings := by
    apply if_neg
    intro hopen
    rcases hprobe with ⟨-, hs⟩ | ⟨-, -, hs⟩
    · cases hs.symm.trans hopen.2
    · cases hs.symm.trans hopen.2
  refine .admitted (nextAttempt_not_inFlight hnext) ?_ hopenings ?_ hprobe
  · intro j
    rw [inFlight_left]
    by_cases hj : j = i <;> simp [hj, RetryTask.operates]
  · rw [← hopenings]
    rfl

theorem enters_effect (hb : g.shared.breaker = some b)
    (h : g.resume W calls (.enters i w) = some g') : Effect W calls g g' (.enters i w) := by
  simp only [resume] at h
  split at h
  · rename_i attempt lastExc hnext
    cases h
    unfold RetryCall.enterLoop
    split
    · rename_i hmore
      have hprobes : g.Probes W calls i w ↔ b.Probes W w := by
        constructor
        · intro hp
          obtain ⟨_, _, b', _, _, hb', hp⟩ := hp
          cases hb.symm.trans hb'
          exact hp
        · exact fun hp => ⟨attempt, lastExc, b, hnext, hmore, hb, hp⟩
      simp only [RetryState.beforeCall, hb]
      rcases hbefore : b.beforeCall (ε := ε) W w with ⟨error | checkedAt, b', w'⟩
      · obtain rfl := (CircuitBreaker.admission hbefore).of_error
        refine refused_effect hnext hb.symm ?_ _
        rw [hprobes]
        exact CircuitBreaker.not_probes_of_error hbefore
      · have hlets := CircuitBreaker.probes_of_ok hbefore
        refine admitted_effect hnext ?_ attempt checkedAt
        rw [hprobes, circuit, hb]
        rcases hlets with ⟨hp, hhalf⟩ | ⟨hclosed, hclosed'⟩
        · exact .inl ⟨hp, congrArg some hhalf⟩
        · refine .inr ⟨?_, congrArg some hclosed, congrArg some hclosed'⟩
          rintro (hp | hp)
          · cases hclosed.symm.trans hp
          · cases hclosed.symm.trans hp.1
    · rename_i hmore
      refine refused_effect (s := { g.shared with world := w }) hnext rfl ?_ _
      intro hp
      obtain ⟨_, _, _, hnext', hmore', _⟩ := hp
      cases hnext.symm.trans hnext'
      exact hmore hmore'
  · cases h

/-- The state that recording a failure leaves the circuit in. -/
theorem failed_circuit {b : CircuitBreaker} (W : RetryWorld ω) (w : ω) :
    (b.onFailure W w).1.state = .open ∨
      b.state = .closed ∧ (b.onFailure W w).1.state = .closed := by
  unfold CircuitBreaker.onFailure
  dsimp only
  split
  · exact .inl rfl
  · rename_i hstays
    rcases hs : b.state with _ | _ | _
    · exact .inr ⟨rfl, rfl⟩
    · exact .inl rfl
    · exact absurd (.inl hs) hstays

/-- Where a task is left after a failed operation. -/
theorem operationDone_error (W : RetryWorld ω) (c : RetryCall ω ε α) (attempt : ℕ)
    (checkedAt : Option Seconds) (e : ε) (s : RetryState ω ε) :
    (c.operationDone W attempt checkedAt (.error e) s).1.operates = false ∧
    (c.operationDone W attempt checkedAt (.error e) s).2.breaker =
      (s.onFailure W checkedAt e).breaker := by
  simp only [RetryCall.operationDone]
  split
  · exact ⟨rfl, rfl⟩
  · obtain ⟨w, hdelay, -⟩ | ⟨delay, w, hdelay, -⟩ :=
      c.nextDelay_cases W attempt e (s.onFailure W checkedAt e)
    all_goals
      rw [hdelay]
      exact ⟨rfl, rfl⟩

/-- A task that has no operation any more. -/
theorem left_idle {r : RetryTask ε α × RetryState ω ε} (h : r.1.operates = false) :
    (∀ j, (g.left i r).InFlight j ↔ j ≠ i ∧ g.InFlight j) ∧
    (g.left i r).admittedIn = g.admittedIn := by
  constructor
  · intro j
    rw [inFlight_left]
    by_cases hj : j = i <;> simp [hj, h]
  · simp [left, h]

theorem completes_effect (hb : g.shared.breaker = some b)
    (h : g.resume W calls (.completes i outcome w) = some g') :
    Effect W calls g g' (.completes i outcome w) := by
  simp only [resume] at h
  split at h
  · rename_i attempt checkedAt htask
    cases h
    have hold : g.InFlight i := by
      rw [InFlight, htask]
      rfl
    rcases outcome with e | result
    · obtain ⟨hidle, hbreaker⟩ := operationDone_error W (calls i) attempt checkedAt e
        { g.shared with world := w }
      obtain ⟨hflight, hadmitted⟩ := left_idle (g := g) (i := i) hidle
      simp only [RetryState.onFailure, hb] at hbreaker
      refine .failed hold hflight ?_ hadmitted
      simp only [circuit, left, hbreaker, hb, Option.map_some, Option.some.injEq]
      rcases failed_circuit (b := b) W w with hopen | ⟨hclosed, hclosed'⟩
      · refine .inl ⟨hopen, ?_⟩
        by_cases hs : b.state = .open <;> simp [hs, hopen]
      · exact .inr ⟨hclosed', if_neg (fun ho => by simp [hclosed'] at ho)⟩
    · obtain ⟨hflight, hadmitted⟩ := left_idle (g := g) (i := i)
        (r := (calls i).operationDone W attempt checkedAt (.ok result) { g.shared with world := w })
        rfl
      have hbreaker : ((calls i).operationDone W attempt checkedAt (.ok result)
          { g.shared with world := w }).2.breaker = some b.onSuccess := by
        simp [RetryCall.operationDone, RetryState.onSuccess, hb]
      refine .succeeded hold hflight ?_ ?_ hadmitted
      · simp only [circuit, left, hbreaker]
        rfl
      · simp only [left, hbreaker]
        exact if_neg (fun ho => by cases ho.2)
  · cases h

theorem resume_effect (hb : g.shared.breaker = some b) (h : g.resume W calls e = some g') :
    Effect W calls g g' e := by
  cases e with
  | enters i w => exact enters_effect hb h
  | completes i outcome w => exact completes_effect hb h

/-- What holds of what is in flight, whatever is resumed in whichever order. -/
structure Coherent (g : Gathered ω ε α) : Prop where
  circuit : g.circuit.isSome
  admitted_le : ∀ i, g.InFlight i → g.admittedIn i ≤ g.openings
  open_stale : g.circuit = some .open → ∀ i, g.InFlight i → ¬g.Fresh i
  half_open_fresh : g.circuit = some .halfOpen → ∀ i, g.InFlight i →
    ∃ j, g.InFlight j ∧ g.Fresh j

theorem Coherent.resume (hg : g.Coherent) (h : Effect W calls g g' e) : g'.Coherent := by
  cases h with
  | refused hflight hcircuit hopenings hadmitted _ =>
    constructor
    · rw [hcircuit]
      exact hg.circuit
    · simpa only [hflight, hadmitted, hopenings] using hg.admitted_le
    · simpa only [hcircuit, hflight, Fresh, hadmitted, hopenings] using hg.open_stale
    · simpa only [hcircuit, hflight, Fresh, hadmitted, hopenings] using hg.half_open_fresh
  | @admitted i w hnew hflight hopenings hadmitted hprobe =>
    have hfresh : g'.Fresh i := by
      rw [Fresh, hadmitted, hopenings, Function.update_self]
    refine ⟨?_, ?_, ?_, fun _ j _ => ⟨i, (hflight i).mpr (.inl rfl), hfresh⟩⟩
    · rcases hprobe with ⟨-, hc⟩ | ⟨-, -, hc⟩ <;> rw [hc] <;> rfl
    · intro j hj
      by_cases he : j = i
      · subst he
        exact hfresh.le
      · rw [hadmitted, hopenings, Function.update_of_ne he]
        exact hg.admitted_le j (((hflight j).mp hj).resolve_left he)
    · intro ho
      rcases hprobe with ⟨-, hc⟩ | ⟨-, -, hc⟩ <;> cases hc.symm.trans ho
  | succeeded hold hflight hcircuit hopenings hadmitted =>
    refine ⟨by rw [hcircuit]; rfl, ?_, ?_, ?_⟩
    · intro j hj
      rw [hadmitted, hopenings]
      exact hg.admitted_le j ((hflight j).mp hj).2
    · intro ho
      cases hcircuit.symm.trans ho
    · intro hh
      cases hcircuit.symm.trans hh
  | failed hold hflight hcircuit hadmitted =>
    rcases hcircuit with ⟨hopen, hopenings⟩ | ⟨hclosed, hopenings⟩
    · have hstale : ∀ j, g'.InFlight j → g.admittedIn j < g'.openings := by
        intro j hj
        have hin := ((hflight j).mp hj).2
        have hle := hg.admitted_le j hin
        rw [hopenings]
        split
        · rename_i ho
          exact lt_of_le_of_ne hle (hg.open_stale ho j hin)
        · exact Nat.lt_succ_of_le hle
      refine ⟨by rw [hopen]; rfl, ?_, ?_, ?_⟩
      · intro j hj
        rw [hadmitted]
        exact (hstale j hj).le
      · intro _ j hj
        rw [Fresh, hadmitted]
        exact (hstale j hj).ne
      · intro hh
        cases hopen.symm.trans hh
    · refine ⟨by rw [hclosed]; rfl, ?_, ?_, ?_⟩
      · intro j hj
        rw [hadmitted, hopenings]
        exact hg.admitted_le j ((hflight j).mp hj).2
      · intro ho
        cases hclosed.symm.trans ho
      · intro hh
        cases hclosed.symm.trans hh

/-- A step does right by the circuit exactly if it keeps to probes. -/
theorem keeps_iff (hg : g.Coherent) (hone : g.OneProbe) (h : Effect W calls g g' e) :
    g'.OneProbe ∧ g.FreshlyCloses e ↔ g.KeepsToProbes W calls e := by
  cases h with
  | refused hflight hcircuit _ _ hprobe =>
    refine iff_of_true ⟨?_, trivial⟩ (fun hp => absurd hp hprobe)
    simpa only [OneProbe, hcircuit, hflight] using hone
  | @admitted i w hnew hflight hopenings hadmitted hprobe =>
    rcases hprobe with ⟨hp, hhalf⟩ | ⟨hp, -, hclosed⟩
    · constructor
      · intro hkeeps _ j hj
        have he := hkeeps.1 hhalf j i ((hflight j).mpr (.inr hj)) ((hflight i).mpr (.inl rfl))
        exact hnew (he ▸ hj)
      · intro hnone
        refine ⟨?_, trivial⟩
        intro _ j k hj hk
        have hall := hnone hp
        rw [((hflight j).mp hj).resolve_right (hall j), ((hflight k).mp hk).resolve_right (hall k)]
    · refine iff_of_true ⟨?_, trivial⟩ (fun hp' => absurd hp' hp)
      intro hh
      cases hclosed.symm.trans hh
  | @succeeded i result w hold hflight hcircuit _ _ =>
    have hprobe : g'.OneProbe := fun hh => by cases hcircuit.symm.trans hh
    constructor
    · intro hkeeps ho
      have hfresh := hkeeps.2 (by rw [ho]; simp)
      exact hg.open_stale ho i hold hfresh
    · intro hnot
      refine ⟨hprobe, ?_⟩
      intro hclosed
      have hhalf : g.circuit = some .halfOpen := by
        rcases Option.isSome_iff_exists.mp hg.circuit with ⟨_ | _ | _, hc⟩
        · exact absurd hc hclosed
        · exact absurd hc hnot
        · exact hc
      obtain ⟨j, hj, hfresh⟩ := hg.half_open_fresh hhalf i hold
      rw [hone hhalf i j hold hj]
      exact hfresh
  | failed hold hflight hcircuit _ =>
    refine iff_of_true ⟨?_, trivial⟩ trivial
    intro hh
    rcases hcircuit with ⟨hc, -⟩ | ⟨hc, -⟩ <;> cases hc.symm.trans hh

theorem Coherent.effect (hg : g.Coherent) (h : g.resume W calls e = some g') :
    Effect W calls g g' e := by
  obtain ⟨state, hstate⟩ := Option.isSome_iff_exists.mp hg.circuit
  obtain ⟨b, hb, -⟩ := Option.map_eq_some_iff.mp hstate
  exact resume_effect hb h

/-- The calls before any of them has begun. -/
def start (ε α : Type) (b : CircuitBreaker) (w : ω) : Gathered ω ε α where
  shared := ⟨some b, w, []⟩

theorem start_idle (b : CircuitBreaker) (w : ω) (i : ℕ) : ¬(start ε α b w).InFlight i := by
  simp [InFlight, start, RetryTask.operates]

theorem start_coherent (b : CircuitBreaker) (w : ω) : (start ε α b w).Coherent where
  circuit := rfl
  admitted_le i hi := absurd hi (start_idle b w i)
  open_stale _ i hi := absurd hi (start_idle b w i)
  half_open_fresh _ i hi := absurd hi (start_idle b w i)

end Gathered

/-- A circuit that has been open since the clock read nothing. -/
def openedBreaker : CircuitBreaker :=
  { state := .open, consecutiveFailures := 5, openedAt := some 0 }

/-- A world that is the reading of its clock. -/
def clockWorld : RetryWorld Seconds where
  monotonic now := (now, now)
  uniform low _ now := (low, now)
  elapse _ now := now
  uniform_bounds h := ⟨le_rfl, h⟩

def plainCall : RetryCall Seconds Unit Unit where
  operation now := (.ok (), now)
  config := {}
  isRetryable _ := true

/-- Two calls that come when the timeout of the open circuit is over. -/
theorem two_enter : ∃ trace g, Run (Recorded (fun g e g' =>
      g.resume clockWorld (fun _ => plainCall) e = some g'))
      (Gathered.start Unit Unit openedBreaker 0) trace g ∧
    (∃ entry ∈ trace, entry.2.2 = g) ∧
    g.circuit = some .halfOpen ∧ g.InFlight 0 ∧ g.InFlight 1 := by
  have he : (((Gathered.start Unit Unit openedBreaker 0).resume clockWorld (fun _ => plainCall)
      (.enters 0 30)).bind fun g => (g.resume clockWorld (fun _ => plainCall) (.enters 1 30)).map
        fun g => (g.circuit, (g.tasks 0).operates, (g.tasks 1).operates)) =
      some (some .halfOpen, true, true) := by
    decide +kernel
  obtain ⟨g₁, h₁, he⟩ := Option.bind_eq_some_iff.mp he
  obtain ⟨g₂, h₂, he⟩ := Option.map_eq_some_iff.mp he
  simp only [Prod.mk.injEq] at he
  exact ⟨[(_, .enters 0 30, g₁), (g₁, .enters 1 30, g₂)], g₂,
    .cons ⟨rfl, rfl, h₁⟩ (.cons ⟨rfl, rfl, h₂⟩ (.nil _)), ⟨(g₁, .enters 1 30, g₂), by simp, rfl⟩, he⟩

/-- In a run of calls that share a breaker there is one probe at a time, and only a probe closes
the circuit again, exactly if every probe finds nothing in flight and nothing succeeds while
the circuit is open. -/
theorem Gathered.one_probe_iff (W : RetryWorld ω) (calls : ℕ → RetryCall ω ε α)
    (b : CircuitBreaker) (w : ω) {trace : List (Gathered ω ε α × Resumption ω ε α × Gathered ω ε α)}
    {g : Gathered ω ε α}
    (hr : Run (Recorded (fun g e g' => g.resume W calls e = some g')) (start ε α b w) trace g) :
    (∀ entry ∈ trace, entry.2.2.OneProbe ∧ entry.1.FreshlyCloses entry.2.1) ↔
      ∀ entry ∈ trace, entry.1.KeepsToProbes W calls entry.2.1 := by
  have hone : (start ε α b w).OneProbe := fun _ i _ hi => absurd hi (start_idle b w i)
  exact hr.each_iff (fun g e g' => g'.OneProbe ∧ g.FreshlyCloses e)
    (fun g e _ => g.KeepsToProbes W calls e) (start_coherent b w) hone
    (fun g e g' hg h => hg.resume (hg.effect h)) (fun _ _ _ hgood => hgood.1)
    (fun g e g' hg hone h => keeps_iff hg hone (hg.effect h))

theorem two_enter_iff : ∃ trace g, Run (Recorded (fun g e g' =>
      g.resume clockWorld (fun _ => plainCall) e = some g'))
      (Gathered.start Unit Unit openedBreaker 0) trace g ∧
    ((∀ entry ∈ trace, entry.2.2.OneProbe ∧ entry.1.FreshlyCloses entry.2.1) ↔
      ∀ entry ∈ trace, entry.1.KeepsToProbes clockWorld (fun _ => plainCall) entry.2.1) := by
  obtain ⟨trace, g, hr, _⟩ := two_enter
  exact ⟨trace, g, hr, Gathered.one_probe_iff clockWorld (fun _ => plainCall) openedBreaker 0 hr⟩

/-- Both operations are in flight while the circuit is half open. -/
theorem two_probes : ∃ trace g, Run (Recorded (fun g e g' =>
      g.resume clockWorld (fun _ => plainCall) e = some g'))
      (Gathered.start Unit Unit openedBreaker 0) trace g ∧
    ¬∀ entry ∈ trace, entry.2.2.OneProbe ∧ entry.1.FreshlyCloses entry.2.1 := by
  obtain ⟨trace, g, hr, ⟨entry, hm, rfl⟩, hhalf, h0, h1⟩ := two_enter
  refine ⟨trace, _, hr, ?_⟩
  intro hall
  exact absurd ((hall entry hm).1 hhalf 0 1 h0 h1) (by decide)

end FuturesBot
