import FuturesBot.Auth.Throttle
import FuturesBot.Lib.Dict
import FuturesBot.Lib.LockOrder

namespace FuturesBot
open Lib

/-- A lock that a transaction keeps until it ends. The namespace of an advisory lock
stands for its scope. -/
inductive LoginLock
  | advisory (scope : LoginScope) (key : ℤ)
  | row (id : ℕ)
  deriving DecidableEq, Repr

def LoginLock.isRow : LoginLock → Bool
  | .row _ => true
  | .advisory .. => false

/-- A row as the server stores it: the version that everyone sees, and the version of
an open transaction that has written the row. -/
structure RowVersions (α : Type u) where
  id : ℕ
  committed : Option α
  pending : Option (ℕ × Option α)

namespace RowVersions

variable {α : Type u} (r : RowVersions α)

def visibleTo (t : ℕ) : Option α :=
  match r.pending with
  | some (u, version) => if u = t then version else r.committed
  | none => r.committed

def write (t : ℕ) (version : Option α) : RowVersions α := { r with pending := some (t, version) }

/-- A row that a DELETE has locked is deleted if its newest version still matches. -/
def deleteIf (t id : ℕ) (matching : α → Bool) : RowVersions α :=
  if r.id = id && (r.visibleTo t).any matching then r.write t none else r

/-- What is left of the row when the transaction ends. -/
def settle (t : ℕ) (commits : Bool) : Option (RowVersions α) :=
  match r.pending with
  | some (u, version) =>
    if u = t then (if commits then version else r.committed).map (fun a => ⟨r.id, some a, none⟩)
    else some r
  | none => some r

end RowVersions

/-- An open transaction: what it still has to do, and the rows that the DELETE in
course has still to visit. -/
structure LoginRequest where
  transaction : LoginTransaction
  scan : Option (List ℕ) := none

def LoginTransaction.isDelete : LoginTransaction → Bool
  | .deleteAttempts .. | .deleteLockouts .. => true
  | _ => false

/-- A DELETE that has not taken its snapshot. -/
def LoginRequest.unscanned (r : LoginRequest) : Bool := r.transaction.isDelete && r.scan.isNone

structure LoginServer where
  attempts : List (RowVersions LoginAttempt)
  lockouts : Dict LoginIdentity (RowVersions LoginLockout)
  nextId : ℕ
  locks : LockTable ℕ LoginLock
  requests : ℕ → Option LoginRequest

namespace LoginServer

def empty : LoginServer := ⟨[], .empty, 0, .free, fun _ => none⟩

variable (s : LoginServer)

/-- No transaction is open. -/
structure AtRest : Prop where
  requests : s.requests = fun _ => none
  locks : s.locks = .free
  attempts : ∀ r ∈ s.attempts, r.pending = none
  lockouts : ∀ k r, s.lockouts.get k = some r → r.pending = none

def view (t : ℕ) : LoginTables where
  attempts := s.attempts.filterMap (·.visibleTo t)
  lockouts k := (s.lockouts.get k).bind (·.visibleTo t)

/-- The rows in the snapshot of a DELETE. -/
def matching (t : ℕ) : LoginTransaction → List ℕ
  | .deleteAttempts matching _ =>
    (s.attempts.filter (fun r => (r.visibleTo t).any matching)).map (·.id)
  | .deleteLockouts matching _ =>
    (s.lockouts.items.filter (fun kr => (kr.2.visibleTo t).any (matching kr.1))).map (·.2.id)
  | _ => []

def stored (id : ℕ) : Bool :=
  s.attempts.any (·.id = id) || s.lockouts.values.any (·.id = id)

/-- The lock that the next statement needs before it goes on. An INSERT waits for the
transaction that has written a row with its key. -/
def nextLock (r : LoginRequest) : Option LoginLock :=
  match r.transaction with
  | .lockIdentity k _ => some (.advisory k.scope (advisoryKey k.identifier))
  | .deleteAttempts .. | .deleteLockouts .. =>
    match r.scan with
    | some (id :: _) => if s.stored id then some (.row id) else none
    | _ => none
  | .insertLockout k .. | .updateLockout k .. => (s.lockouts.get k).map (fun r => .row r.id)
  | .commit | .raise _ | .select _ | .insertAttempt .. => none

def held (t : ℕ) (lock : LoginLock) : Bool := (s.locks.holder lock).any (· ≠ t)

def blocked (t : ℕ) (r : LoginRequest) : Bool := (s.nextLock r).any (s.held t)

def proceed (t : ℕ) (r : LoginRequest) : LoginServer :=
  { s with requests := Function.update s.requests t (some r), locks := s.locks.resume t }

def take (t : ℕ) (lock : LoginLock) (r : LoginRequest) : LoginServer :=
  { s with requests := Function.update s.requests t (some r), locks := s.locks.acquire t lock }

def finish (t : ℕ) (commits : Bool) : LoginServer :=
  { s with
    attempts := s.attempts.filterMap (·.settle t commits)
    lockouts := s.lockouts.filterMap (fun _ r => r.settle t commits)
    locks := s.locks.release t
    requests := Function.update s.requests t none }

def deleteRow (t id : ℕ) : LoginTransaction → LoginServer
  | .deleteAttempts matching _ =>
    { s with attempts := s.attempts.map (·.deleteIf t id matching) }
  | .deleteLockouts matching _ =>
    { s with lockouts := s.lockouts.filterMap (fun k r => some (r.deleteIf t id (matching k))) }
  | _ => s

def insertAttempt (t : ℕ) (attempt : LoginAttempt) : LoginServer :=
  { s with
    attempts := s.attempts ++ [⟨s.nextId, none, some (t, some attempt)⟩], nextId := s.nextId + 1 }

def insertLockout (t : ℕ) (k : LoginIdentity) (lockout : LoginLockout) : LoginServer :=
  { s with
    lockouts := s.lockouts.set k ⟨s.nextId, none, some (t, some lockout)⟩, nextId := s.nextId + 1 }

def writeLockout (t : ℕ) (k : LoginIdentity) (row : RowVersions LoginLockout)
    (lockout : LoginLockout) : LoginServer :=
  { s with lockouts := s.lockouts.set k (row.write t (some lockout)) }

/-- The next statement of a transaction that is not blocked, or the next row of its
DELETE. A row that has gone meanwhile is passed over. -/
def advance (t : ℕ) (r : LoginRequest) : LoginServer :=
  match r.transaction with
  | .commit => s.finish t true
  | .raise _ => s.finish t false
  | .lockIdentity k next =>
    s.take t (.advisory k.scope (advisoryKey k.identifier)) { transaction := next }
  | .select next => s.proceed t { transaction := next (s.view t) }
  | .insertAttempt attempt next =>
    (s.insertAttempt t attempt).take t (.row s.nextId) { transaction := next }
  | .deleteAttempts _ next | .deleteLockouts _ next =>
    match r.scan with
    | none => s.proceed t r
    | some [] => s.proceed t { transaction := next }
    | some (id :: ids) =>
      if s.stored id then
        (s.deleteRow t id r.transaction).take t (.row id) { r with scan := some ids }
      else s.proceed t { r with scan := some ids }
  | .insertLockout k lockout conflict next =>
    match s.lockouts.get k with
    | none => (s.insertLockout t k lockout).take t (.row s.nextId) { transaction := next }
    | some row =>
      if (row.visibleTo t).isSome then s.proceed t { transaction := conflict }
      else (s.writeLockout t k row lockout).take t (.row row.id) { transaction := next }
  | .updateLockout k lockout next =>
    match s.lockouts.get k with
    | none => s.finish t false
    | some row =>
      if (row.visibleTo t).isSome then
        (s.writeLockout t k row lockout).take t (.row row.id) { transaction := next }
      else s.finish t false

theorem atRest_empty : empty.AtRest where
  requests := rfl
  locks := rfl
  attempts _ h := by cases h
  lockouts _ _ h := by cases h

end LoginServer

/-- What a login writes once the password has been checked. -/
inductive LoginOutcome
  | failed (username : String) (ip : Option String) (now : Timestamp)
  | succeeded (username : String) (ip : Option String)

inductive LoginEvent
  | start (t : ℕ) (login : LoginOutcome)
  /-- A DELETE takes its snapshot, whose rows it visits in any order. -/
  | scan (t : ℕ) (order : List ℕ)
  | advance (t : ℕ)
  | wait (t : ℕ)

namespace LoginThrottle

variable (th : LoginThrottle)

def transaction : LoginOutcome → LoginTransaction
  | .failed username ip now => th.recordFailure username ip now .commit
  | .succeeded username ip => th.clear username ip .commit

/-- Any number of logins at a time, each a transaction of its own. -/
def serve (s : LoginServer) : LoginEvent → Option LoginServer
  | .start t login =>
    if (s.requests t).isSome then none
    else
      some { s with
        requests := Function.update s.requests t (some { transaction := th.transaction login }) }
  | .scan t order =>
    (s.requests t).bind fun r =>
      if r.unscanned && order.isPerm (s.matching t r.transaction) then
        some (s.proceed t { r with scan := some order })
      else none
  | .advance t =>
    (s.requests t).bind fun r =>
      if r.unscanned || s.blocked t r then none else some (s.advance t r)
  | .wait t =>
    (s.requests t).bind fun r =>
      (s.nextLock r).bind fun lock =>
        if s.held t lock then some { s with locks := s.locks.wait t lock } else none

def Serves (s : LoginServer) (e : LoginEvent) (s' : LoginServer) : Prop := th.serve s e = some s'

end LoginThrottle

end FuturesBot
