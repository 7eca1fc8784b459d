import FuturesBot.Control.BotState

namespace FuturesBot

inductive RunStatus
  | running | stopped | crashed
  deriving DecidableEq, Repr

/-- The rejections of a trigger. -/
inductive EmergencyStopRejected
  | botRunNotRunning (status : Option RunStatus)
  | unknownPersistedState (raw : Option String)
  | currentStateNotAllowed (current : BotState)
  | invalidTransition (current target : BotState)

/-- What a trigger reads once it holds the lock on the run. -/
structure LockedView where
  status : Option RunStatus
  latest : Option String

namespace EmergencyStopService

/-- Whether the transition is admitted, and from which state. A caller that names
the states it starts from is held to them. -/
def admission (v : LockedView) (target : BotState) (requireCurrentIn : Option (List BotState)) :
    Except EmergencyStopRejected BotState :=
  if v.status ≠ some .running then .error (.botRunNotRunning v.status)
  else match resolvePersistedState v.latest with
    | none => .error (.unknownPersistedState v.latest)
    | some current =>
      if requireCurrentIn.any (current ∉ ·) then .error (.currentStateNotAllowed current)
      else if ¬current.canTransitionTo target then .error (.invalidTransition current target)
      else .ok current

/-- The first half of a trigger: the state that it finds under the lock. -/
def readUnderLock (v : LockedView) : Except EmergencyStopRejected BotState :=
  if v.status ≠ some .running then .error (.botRunNotRunning v.status)
  else match resolvePersistedState v.latest with
    | none => .error (.unknownPersistedState v.latest)
    | some current => .ok current

/-- The second half: what it may make of that state. -/
def checkTransition (current target : BotState) (requireCurrentIn : Option (List BotState)) :
    Except EmergencyStopRejected Unit :=
  if requireCurrentIn.any (current ∉ ·) then .error (.currentStateNotAllowed current)
  else if ¬current.canTransitionTo target then .error (.invalidTransition current target)
  else .ok ()

def newRow (current target : BotState) : BotStateRow where
  state := target.value
  previousState := some current.value

/-- The in-memory state of a caller that passes its state machine: it follows the
persisted one as soon as that is known, and the target after the commit. -/
def resynced (v : LockedView) (target : BotState) (requireCurrentIn : Option (List BotState))
    (memory : BotState) : BotState :=
  match admission v target requireCurrentIn with
  | .ok _ => target
  | .error (.botRunNotRunning _) | .error (.unknownPersistedState _) => memory
  | .error (.currentStateNotAllowed current) | .error (.invalidTransition current _) => current

theorem admission_ok (h : admission v target required = .ok current) :
    v.status = some .running ∧ resolvePersistedState v.latest = some current ∧
      (∀ states ∈ required, current ∈ states) ∧ current.canTransitionTo target := by
  unfold admission at h
  split at h
  · cases h
  rename_i hs
  split at h
  · cases h
  rename_i c hc
  split at h
  · cases h
  rename_i hr
  split at h
  · cases h
  rename_i ht
  cases h
  refine ⟨not_not.mp hs, hc, ?_, by simpa using ht⟩
  intro states hm
  cases hm
  simpa using hr

theorem readUnderLock_ok (h : readUnderLock v = .ok current) :
    v.status = some .running ∧ resolvePersistedState v.latest = some current := by
  unfold readUnderLock at h
  split at h
  · cases h
  rename_i hs
  split at h
  · cases h
  rename_i c hc
  cases h
  exact ⟨not_not.mp hs, hc⟩

/-- The two halves make up the whole. -/
theorem admission_of_halves (hs : v.status = some .running)
    (hr : resolvePersistedState v.latest = some current)
    (hc : checkTransition current target required = .ok ()) :
    admission v target required = .ok current := by
  unfold checkTransition at hc
  split at hc
  · cases hc
  rename_i hreq
  split at hc
  · cases hc
  rename_i ht
  simp only [admission, hs, hr]
  rw [if_neg (by simp), if_neg hreq, if_neg ht]

theorem admission_ok_iff : admission v target required = .ok current ↔
    v.status = some .running ∧ resolvePersistedState v.latest = some current ∧
      (∀ states ∈ required, current ∈ states) ∧ current.canTransitionTo target := by
  refine ⟨admission_ok, ?_⟩
  rintro ⟨hs, hr, hstates, hto⟩
  have hrequired : ¬required.any (current ∉ ·) := by
    cases required with
    | none => exact Bool.false_ne_true
    | some states => simpa using hstates states rfl
  refine admission_of_halves hs hr ?_
  rw [checkTransition, if_neg hrequired, if_neg (by simpa using hto)]

end EmergencyStopService

end FuturesBot
