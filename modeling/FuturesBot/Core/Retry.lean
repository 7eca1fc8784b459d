import FuturesBot.Core.Errors
import Mathlib.Algebra.Order.Field.Rat

namespace FuturesBot

structure RetryConfig where
  maxAttempts : ℤ := 4
  baseDelaySeconds : Seconds := 1
  maxDelaySeconds : Seconds := 30
  jitterRatio : ℚ := 1 / 5

structure CircuitBreakerConfig where
  failureThreshold : ℤ := 5
  resetTimeoutSeconds : Seconds := 30

inductive CircuitState
  | closed | open | halfOpen
  deriving DecidableEq, Repr

structure CircuitBreaker where
  config : CircuitBreakerConfig := {}
  state : CircuitState := .closed
  consecutiveFailures : ℕ := 0
  openedAt : Option Seconds := none

/-- What a call can end with other than its result: an error of the operation, an open circuit
with the failures that it counts, a failed assertion, a power that is no float, or the refusal of
`time.sleep` to wait. -/
inductive RetryError (ε : Type)
  | raised (e : ε)
  | circuitOpen (failures : ℕ)
  | assertion
  | overflow
  | sleepRefused
  deriving DecidableEq, Repr

/-- A float of seconds. A server can ask for any of them. -/
inductive Delay
  | seconds (x : Seconds)
  | posInf
  | negInf
  | nan
  deriving DecidableEq, Repr

/-- `min` of Python, which leaves its first argument only for one that is less. -/
def Delay.capped (limit : Seconds) : Delay → Delay
  | .seconds x => .seconds (min x limit)
  | .posInf => .seconds limit
  | .negInf => .negInf
  | .nan => .nan

/-- The nanoseconds of a sleep are a signed number of 64 bits. -/
def longestSleep : Seconds := 2 ^ 63 / 10 ^ 9

/-- What `time.sleep` waits for. -/
def Delay.Sleeps : Delay → Prop
  | .seconds x => 0 ≤ x ∧ x < longestSleep
  | .posInf | .negInf | .nan => False

instance : DecidablePred Delay.Sleeps
  | .seconds _ => inferInstanceAs (Decidable (_ ∧ _))
  | .posInf | .negInf | .nan => isFalse id

/-- The clock, the random numbers between two bounds and the waiting of the process. -/
structure RetryWorld (ω : Type) where
  monotonic : ω → Seconds × ω
  uniform : ℚ → ℚ → ω → ℚ × ω
  elapse : Delay → ω → ω
  uniform_bounds : ∀ {low high : ℚ} {w : ω}, low ≤ high →
    low ≤ (uniform low high w).1 ∧ (uniform low high w).1 ≤ high

/-- An operation that has run: what was read off the clock before it, if the breaker asked for
the time, what it has failed with, and the breaker as it was left. -/
structure Attempt (ε : Type) where
  checkedAt : Option Seconds
  failure : Option ε
  left : Option CircuitBreaker

/-- The breaker that calls share, if they have one, and the world around it. `log` is kept for
what is said about the calls. -/
structure RetryState (ω ε : Type) where
  breaker : Option CircuitBreaker
  world : ω
  log : List (Attempt ε) := []

variable {ω ε α : Type}

namespace CircuitBreaker

/-- Gives back what it has read off the clock. -/
def beforeCall (W : RetryWorld ω) (b : CircuitBreaker) (w : ω) :
    Except (RetryError ε) (Option Seconds) × CircuitBreaker × ω :=
  if b.state ≠ .open then (.ok none, b, w)
  else
    match b.openedAt with
    | none => (.error .assertion, b, w)
    | some opened =>
      let (now, w) := W.monotonic w
      if now - opened < b.config.resetTimeoutSeconds then
        (.error (.circuitOpen b.consecutiveFailures), b, w)
      else (.ok (some now), { b with state := .halfOpen }, w)

def onSuccess (b : CircuitBreaker) : CircuitBreaker :=
  { b with state := .closed, consecutiveFailures := 0, openedAt := none }

def onFailure (W : RetryWorld ω) (b : CircuitBreaker) (w : ω) : CircuitBreaker × ω :=
  let b := { b with consecutiveFailures := b.consecutiveFailures + 1 }
  if b.state = .halfOpen ∨ b.config.failureThreshold ≤ b.consecutiveFailures then
    let (now, w) := W.monotonic w
    ({ b with state := .open, openedAt := some now }, w)
  else (b, w)

end CircuitBreaker

/-- The first exponent for which a power of `2.0` is too large for a float. -/
def floatOverflow : ℕ := 1024

/-- What a server asks to wait for is not spread out. There is no delay where `2.0 ** attempt`
raises `OverflowError`. -/
def computeDelay (W : RetryWorld ω) (attempt : ℕ) (config : RetryConfig)
    (retryAfter : Option Delay) (w : ω) : Option Delay × ω :=
  match retryAfter with
  | some delay => (some (delay.capped config.maxDelaySeconds), w)
  | none =>
    if floatOverflow ≤ attempt then (none, w)
    else
      let base := min (config.baseDelaySeconds * 2 ^ attempt) config.maxDelaySeconds
      if config.jitterRatio ≤ 0 then (some (.seconds base), w)
      else
        let (jitter, w) := W.uniform (-config.jitterRatio) config.jitterRatio w
        (some (.seconds (max 0 (base * (1 + jitter)))), w)

/-- `ValueError` for less than nothing or for no number, `OverflowError` for too long. -/
def timeSleep (W : RetryWorld ω) (delay : Delay) (w : ω) : Except (RetryError ε) ω :=
  if delay.Sleeps then .ok (W.elapse delay w) else .error .sleepRefused

/-- It refuses nothing. A delay that is not positive only gives way to other tasks. -/
def asyncioSleep (W : RetryWorld ω) (delay : Delay) (w : ω) : ω := W.elapse delay w

/-- The arguments of a call. -/
structure RetryCall (ω ε α : Type) where
  operation : ω → Except ε α × ω
  config : RetryConfig
  isRetryable : ε → Bool
  getRetryAfter : Option (ε → Option Delay) := none
  onRetry : Option (ℕ → Delay → ε → ω → ω) := none

namespace RetryState

def beforeCall (W : RetryWorld ω) (s : RetryState ω ε) :
    Except (RetryError ε) (Option Seconds) × RetryState ω ε :=
  match s.breaker with
  | none => (.ok none, s)
  | some b =>
    let (r, b, w) := b.beforeCall W s.world
    (r, { s with breaker := some b, world := w })

def onSuccess (checkedAt : Option Seconds) (s : RetryState ω ε) : RetryState ω ε :=
  let breaker := s.breaker.map CircuitBreaker.onSuccess
  { s with breaker := breaker, log := s.log ++ [⟨checkedAt, none, breaker⟩] }

def onFailure (W : RetryWorld ω) (checkedAt : Option Seconds) (e : ε) (s : RetryState ω ε) :
    RetryState ω ε :=
  match s.breaker with
  | none => { s with log := s.log ++ [⟨checkedAt, some e, none⟩] }
  | some b =>
    let (b, w) := b.onFailure W s.world
    { breaker := some b, world := w, log := s.log ++ [⟨checkedAt, some e, some b⟩] }

end RetryState

namespace RetryCall

/-- An error after which the loop does not go on. -/
def givesUp (c : RetryCall ω ε α) (attempt : ℕ) (e : ε) : Prop :=
  ¬c.isRetryable e ∨ (attempt : ℤ) = c.config.maxAttempts - 1

instance (c : RetryCall ω ε α) (attempt : ℕ) (e : ε) : Decidable (c.givesUp attempt e) :=
  inferInstanceAs (Decidable (_ ∨ _))

/-- The delay after a failed attempt, with the caller told of it. -/
def nextDelay (W : RetryWorld ω) (c : RetryCall ω ε α) (attempt : ℕ) (e : ε)
    (s : RetryState ω ε) : Option Delay × RetryState ω ε :=
  match computeDelay W attempt c.config (c.getRetryAfter.bind (· e)) s.world with
  | (none, w) => (none, { s with world := w })
  | (some delay, w) =>
    let w := match c.onRetry with
      | some onRetry => onRetry (attempt + 1) delay e w
      | none => w
    (some delay, { s with world := w })

/-- The last error, once the attempts have run out. -/
def outOfAttempts (lastExc : Option ε) : Except (RetryError ε) α :=
  match lastExc with
  | some e => .error (.raised e)
  | none => .error .assertion

/-- The loop of `retry_sync` from an attempt on, with the attempts that are left. -/
def retrySyncFrom (W : RetryWorld ω) (c : RetryCall ω ε α) :
    ℕ → ℕ → Option ε → RetryState ω ε → Except (RetryError ε) α × RetryState ω ε
  | _, 0, lastExc, s => (outOfAttempts lastExc, s)
  | attempt, left + 1, _, s =>
    match s.beforeCall W with
    | (.error e, s) => (.error e, s)
    | (.ok checkedAt, s) =>
      match c.operation s.world with
      | (.ok result, w) => (.ok result, { s with world := w }.onSuccess checkedAt)
      | (.error e, w) =>
        let s := { s with world := w }.onFailure W checkedAt e
        if c.givesUp attempt e then (.error (.raised e), s)
        else
          match c.nextDelay W attempt e s with
          | (none, s) => (.error .overflow, s)
          | (some delay, s) =>
            match timeSleep W delay s.world with
            | .error e => (.error e, s)
            | .ok w => retrySyncFrom W c (attempt + 1) left (some e) { s with world := w }

def retrySync (W : RetryWorld ω) (c : RetryCall ω ε α) (s : RetryState ω ε) :
    Except (RetryError ε) α × RetryState ω ε :=
  retrySyncFrom W c 0 c.config.maxAttempts.toNat none s

end RetryCall

/-- Where a call of `retry_async` stands: not yet run, at one of its two awaits, or at its
end. -/
inductive RetryTask (ε α : Type)
  | starting
  | awaitingOperation (attempt : ℕ) (checkedAt : Option Seconds)
  | sleeping (attempt : ℕ) (delay : Delay) (e : ε)
  | finished (result : Except (RetryError ε) α)

namespace RetryCall

/-- From the head of the loop of `retry_async` to its next await. -/
def enterLoop (W : RetryWorld ω) (c : RetryCall ω ε α) (attempt : ℕ) (lastExc : Option ε)
    (s : RetryState ω ε) : RetryTask ε α × RetryState ω ε :=
  if (attempt : ℤ) < c.config.maxAttempts then
    match s.beforeCall W with
    | (.error e, s) => (.finished (.error e), s)
    | (.ok checkedAt, s) => (.awaitingOperation attempt checkedAt, s)
  else (.finished (outOfAttempts lastExc), s)

/-- From the end of the awaited operation to the next await. -/
def operationDone (W : RetryWorld ω) (c : RetryCall ω ε α) (attempt : ℕ)
    (checkedAt : Option Seconds) (outcome : Except ε α) (s : RetryState ω ε) :
    RetryTask ε α × RetryState ω ε :=
  match outcome with
  | .ok result => (.finished (.ok result), s.onSuccess checkedAt)
  | .error e =>
    let s := s.onFailure W checkedAt e
    if c.givesUp attempt e then (.finished (.error (.raised e)), s)
    else
      match c.nextDelay W attempt e s with
      | (none, s) => (.finished (.error .overflow), s)
      | (some delay, s) => (.sleeping attempt delay e, s)

/-- The task with nothing beside it, resumed for a number of times. -/
def runAlone (W : RetryWorld ω) (c : RetryCall ω ε α) :
    ℕ → RetryTask ε α → RetryState ω ε → Option (Except (RetryError ε) α × RetryState ω ε)
  | _, .finished result, s => some (result, s)
  | 0, _, _ => none
  | fuel + 1, .starting, s =>
    let (task, s) := c.enterLoop W 0 none s
    runAlone W c fuel task s
  | fuel + 1, .awaitingOperation attempt checkedAt, s =>
    let (outcome, w) := c.operation s.world
    let (task, s) := c.operationDone W attempt checkedAt outcome { s with world := w }
    runAlone W c fuel task s
  | fuel + 1, .sleeping attempt delay e, s =>
    let (task, s) := c.enterLoop W (attempt + 1) (some e)
      { s with world := asyncioSleep W delay s.world }
    runAlone W c fuel task s

/-- Two awaits for each attempt are as many as there can be. -/
def retryAsyncAlone (W : RetryWorld ω) (c : RetryCall ω ε α) (s : RetryState ω ε) :
    Option (Except (RetryError ε) α × RetryState ω ε) :=
  runAlone W c (2 * c.config.maxAttempts.toNat + 1) .starting s

end RetryCall

end FuturesBot
