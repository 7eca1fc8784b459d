import FuturesBot.Auth.Schemas

namespace FuturesBot

namespace LoginTables

def empty : LoginTables := ⟨[], fun _ => none⟩

variable (tables : LoginTables)

/-- The attempts of an identity since a moment, which is itself counted. -/
def failuresSince (k : LoginIdentity) (since : Timestamp) : List LoginAttempt :=
  tables.attempts.filter (fun a => a.identity = k ∧ since ≤ a.timestamp)

def countFailuresSince (k : LoginIdentity) (since : Timestamp) : ℕ :=
  (tables.failuresSince k since).length

def getLockout (k : LoginIdentity) : Option LoginLockout := tables.lockouts k

def getLockouts (pairs : List LoginIdentity) (k : LoginIdentity) : Option LoginLockout :=
  if k ∈ pairs then tables.lockouts k else none

def insertAttempt (attempt : LoginAttempt) : LoginTables :=
  { tables with attempts := tables.attempts ++ [attempt] }

def deleteAttempts (matching : LoginAttempt → Bool) : LoginTables :=
  { tables with attempts := tables.attempts.filter (fun a => !matching a) }

def setLockout (k : LoginIdentity) (lockout : LoginLockout) : LoginTables :=
  { tables with lockouts := Function.update tables.lockouts k (some lockout) }

def deleteLockouts (matching : LoginIdentity → LoginLockout → Bool) : LoginTables :=
  { tables with lockouts := fun k => (tables.lockouts k).filter (fun l => !matching k l) }

end LoginTables

def LoginLockout.renewed (lockout : LoginLockout) (lockedUntil now : Timestamp) : LoginLockout :=
  { lockout with
    lockoutCount := lockout.lockoutCount + 1, lockedUntil := lockedUntil, updatedAt := now }

/-- The number of the lockout that comes after this one, if there is one. -/
def nextCount : Option LoginLockout → ℕ
  | none => 1
  | some previous => previous.lockoutCount + 1

/-- The statements that a request still has to send to the database. A request reads
with `select` and goes on by what it has read; an exception rolls everything back. -/
inductive LoginTransaction
  | commit
  | raise (e : PyError)
  | lockIdentity (k : LoginIdentity) (next : LoginTransaction)
  | select (next : LoginTables → LoginTransaction)
  | insertAttempt (attempt : LoginAttempt) (next : LoginTransaction)
  | deleteAttempts (matching : LoginAttempt → Bool) (next : LoginTransaction)
  | insertLockout (k : LoginIdentity) (lockout : LoginLockout) (conflict next : LoginTransaction)
  | updateLockout (k : LoginIdentity) (lockout : LoginLockout) (next : LoginTransaction)
  | deleteLockouts (matching : LoginIdentity → LoginLockout → Bool) (next : LoginTransaction)

namespace LoginTransaction

/-- What a transaction leaves in the tables when no other one runs. -/
def run : LoginTransaction → LoginTables → Except PyError LoginTables
  | commit, tables => .ok tables
  | raise e, _ => .error e
  | lockIdentity _ next, tables => next.run tables
  | select next, tables => (next tables).run tables
  | insertAttempt attempt next, tables => next.run (tables.insertAttempt attempt)
  | deleteAttempts matching next, tables => next.run (tables.deleteAttempts matching)
  | insertLockout k lockout conflict next, tables =>
    if (tables.getLockout k).isSome then conflict.run tables
    else next.run (tables.setLockout k lockout)
  | updateLockout k lockout next, tables =>
    -- The session insists on finding the row it has read.
    if (tables.getLockout k).isSome then next.run (tables.setLockout k lockout)
    else .error .sqlAlchemyError
  | deleteLockouts matching next, tables => next.run (tables.deleteLockouts matching)

/- The repository, each call with what the request does after it. -/

def clearAttempts (k : LoginIdentity) (next : LoginTransaction) : LoginTransaction :=
  .deleteAttempts (fun a => a.identity = k) next

def purgeAttemptsBefore (cutoff : Timestamp) (next : LoginTransaction) : LoginTransaction :=
  .deleteAttempts (fun a => a.timestamp < cutoff) next

def renew (k : LoginIdentity) (lockout : LoginLockout) (lockedUntil now : Timestamp)
    (next : LoginTransaction) : LoginTransaction :=
  .updateLockout k (lockout.renewed lockedUntil now) next

def upsertLockout (k : LoginIdentity) (lockedUntil now : Timestamp) (next : LoginTransaction) :
    LoginTransaction :=
  .select fun tables =>
    match tables.getLockout k with
    | some existing => renew k existing lockedUntil now next
    | none =>
      let lockout : LoginLockout :=
        { lockedUntil := lockedUntil, lockoutCount := 1, createdAt := now, updatedAt := now }
      .insertLockout k lockout
        (.select fun tables =>
          match tables.getLockout k with
          | none => .raise .sqlAlchemyError
          | some concurrent => renew k concurrent lockedUntil now next)
        next

def purgeLockoutsBefore (cutoff : Timestamp) (next : LoginTransaction) : LoginTransaction :=
  .deleteLockouts (fun _ l => l.lockedUntil < cutoff) next

def clearLockout (k : LoginIdentity) (next : LoginTransaction) : LoginTransaction :=
  .deleteLockouts (fun k' _ => k' = k) next

end LoginTransaction

/-- Microseconds. -/
def seconds (n : ℕ) : ℕ := n * 1000000

/-- The seconds until the release, rounded up and at least one. -/
def remainingSeconds (lockedUntil now : Timestamp) : ℤ :=
  max 1 ⌈((lockedUntil : ℚ) - now) / 1000000⌉

structure LoginThrottle where
  config : LoginThrottleConfig
  casefold : String → String

namespace LoginThrottle
open LoginTransaction

variable (th : LoginThrottle)

def maxFailures : LoginScope → ℕ
  | .username => th.config.maxFailuresPerUsername
  | .ip => th.config.maxFailuresPerIp

/-- The two pairs that an attempt counts for. -/
def identities (username : String) (ip : Option String) : List LoginIdentity :=
  [⟨.username, normalizeUsername th.casefold username⟩, ⟨.ip, normalizeIp ip⟩]

/-- No row is older than the epoch, where the subtraction stops. -/
def windowStart (now : Timestamp) : Timestamp := now - seconds th.config.windowSeconds

def retention : ℕ := max th.config.windowSeconds th.config.maxLockoutSeconds

def backoffMemoryStart (now : Timestamp) : Timestamp := now - seconds th.retention

def activeLockout (lockouts : LoginIdentity → Option LoginLockout) (now : Timestamp)
    (k : LoginIdentity) : Option (LoginScope × Timestamp) :=
  match lockouts k with
  | some lockout => if now < lockout.lockedUntil then some (k.scope, lockout.lockedUntil) else none
  | none => none

def checkLockout (tables : LoginTables) (username : String) (ip : Option String)
    (now : Timestamp) : ThrottleDecision :=
  if !th.config.enabled then { locked := false, retryAfterSeconds := 0 }
  else
    let pairs := th.identities username ip
    let active := pairs.filterMap (activeLockout (tables.getLockouts pairs) now)
    -- The longest one, and the first of two equally long ones.
    match active.argmax (·.2) with
    | none => { locked := false, retryAfterSeconds := 0 }
    | some (scope, lockedUntil) =>
      { locked := true, retryAfterSeconds := remainingSeconds lockedUntil now, scope := some scope }

/-- The loop of `record_failure` over the identities of the attempt. -/
def recordEach (now : Timestamp) (next : LoginTransaction) : List LoginIdentity → LoginTransaction
  | [] => next
  | k :: ks =>
    .lockIdentity k <|
    .insertAttempt ⟨k, now⟩ <|
    .select fun tables =>
      if tables.countFailuresSince k (th.windowStart now) < th.maxFailures k.scope then
        recordEach now next ks
      else
        .select fun tables =>
          match computeLockoutSeconds (nextCount (tables.getLockout k)) th.config with
          | .error e => .raise e
          | .ok duration =>
            upsertLockout k (now + seconds duration) now <|
            clearAttempts k <|
            recordEach now next ks

/-- What `record_failure` deletes before it counts. -/
def purge (now : Timestamp) (next : LoginTransaction) : LoginTransaction :=
  purgeAttemptsBefore (th.windowStart now) <|
  purgeLockoutsBefore (th.backoffMemoryStart now) next

def recordFailure (username : String) (ip : Option String) (now : Timestamp)
    (next : LoginTransaction) : LoginTransaction :=
  if !th.config.enabled then next
  else th.purge now (th.recordEach now next (th.identities username ip))

def clearEach (next : LoginTransaction) : List LoginIdentity → LoginTransaction
  | [] => next
  | k :: ks => clearAttempts k <| clearLockout k <| clearEach next ks

def clear (username : String) (ip : Option String) (next : LoginTransaction) :
    LoginTransaction :=
  if !th.config.enabled then next else clearEach next (th.identities username ip)

end LoginThrottle

/-- The values of `config.yaml`. -/
def defaultLoginThrottle : LoginThrottleConfig where
  enabled := true
  maxFailuresPerUsername := 5
  maxFailuresPerIp := 10
  windowSeconds := 900
  lockoutSeconds := 300
  lockoutBackoffFactor := 2
  maxLockoutSeconds := 3600
  positive := by decide
  backoff_at_least_one := by decide +kernel
  max_lockout_not_below_base := by decide

/-- The texts of the samples are their own case foldings. -/
def sampleThrottle : LoginThrottle := ⟨defaultLoginThrottle, id⟩

end FuturesBot
