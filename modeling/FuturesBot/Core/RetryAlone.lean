import FuturesBot.Core.Retry
import FuturesBot.Lib.Periods
import Mathlib.Logic.Relation

namespace FuturesBot
open Lib

variable {ω ε α : Type} {W : RetryWorld ω}

/-- What a breaker does before a call, with the time that it reads if the circuit is open. -/
inductive CircuitBreaker.Admission (W : RetryWorld ω) (b : CircuitBreaker) (w : ω) :
    Except (RetryError ε) (Option Seconds) → CircuitBreaker → ω → Prop
  | passes (hstate : b.state ≠ .open) : Admission W b w (.ok none) b w
  | asserts (hopen : b.state = .open) (hopened : b.openedAt = none) :
      Admission W b w (.error .assertion) b w
  | refuses {opened : Seconds} (hopen : b.state = .open) (hopened : b.openedAt = some opened)
      (hearly : (W.monotonic w).1 - opened < b.config.resetTimeoutSeconds) :
      Admission W b w (.error (.circuitOpen b.consecutiveFailures)) b (W.monotonic w).2
  | probes {opened : Seconds} (hopen : b.state = .open) (hopened : b.openedAt = some opened)
      (hlate : b.config.resetTimeoutSeconds ≤ (W.monotonic w).1 - opened) :
      Admission W b w (.ok (some (W.monotonic w).1)) { b with state := .halfOpen }
        (W.monotonic w).2

theorem CircuitBreaker.admission {b b' : CircuitBreaker}
    {r : Except (RetryError ε) (Option Seconds)} (h : b.beforeCall W w = (r, b', w')) :
    b.Admission W w r b' w' := by
  unfold beforeCall at h
  split at h
  · rename_i hstate
    cases h
    exact .passes hstate
  · rename_i hstate
    have hopen : b.state = .open := not_not.mp hstate
    split at h
    · rename_i hopened
      cases h
      exact .asserts hopen hopened
    · rename_i opened hopened
      dsimp only at h
      split at h
      · rename_i hearly
        cases h
        exact .refuses hopen hopened hearly
      · rename_i hlate
        cases h
        exact .probes hopen hopened (not_lt.mp hlate)

/-- A refusal leaves the breaker as it is. -/
theorem CircuitBreaker.Admission.of_error {b b' : CircuitBreaker} {e : RetryError ε}
    (h : b.Admission W w (.error e) b' w') : b' = b := by
  cases h with
  | asserts => rfl
  | refuses => rfl

namespace RetryState

variable {s s₁ : RetryState ω ε}

/-- Without a breaker a call is let through as it is; with one, the breaker decides. -/
theorem beforeCall_cases (h : s.beforeCall W = (r, s₁)) :
    (s.breaker = none ∧ r = .ok none ∧ s₁ = s) ∨
    ∃ b b₁ w₁, s.breaker = some b ∧ b.Admission W s.world r b₁ w₁ ∧
      s₁ = { s with breaker := some b₁, world := w₁ } := by
  unfold beforeCall at h
  rcases hbreaker : s.breaker with _ | b
  · rw [hbreaker] at h
    cases h
    exact .inl ⟨rfl, rfl, rfl⟩
  · rcases hb : b.beforeCall (ε := ε) W s.world with ⟨r', b₁, w₁⟩
    simp only [hbreaker, hb, Prod.mk.injEq] at h
    obtain ⟨rfl, rfl⟩ := h
    exact .inr ⟨b, b₁, w₁, rfl, CircuitBreaker.admission hb, rfl⟩

theorem beforeCall_breaker (hbreaker : s.breaker = some b) (h : s.beforeCall W = (r, s₁)) :
    ∃ b₁ w₁, b.Admission W s.world r b₁ w₁ ∧
      s₁ = { s with breaker := some b₁, world := w₁ } := by
  rcases beforeCall_cases h with ⟨hnone, -, -⟩ | ⟨b', b₁, w₁, hb', hadmission, hs₁⟩
  · cases hnone.symm.trans hbreaker
  · cases hb'.symm.trans hbreaker
    exact ⟨b₁, w₁, hadmission, hs₁⟩

theorem beforeCall_log (W : RetryWorld ω) (s : RetryState ω ε) :
    (s.beforeCall W).2.log = s.log := by
  unfold beforeCall
  cases s.breaker <;> rfl

/-- The breaker refuses with errors of its own. -/
theorem beforeCall_error {s : RetryState ω ε} (h : (s.beforeCall W).1 = .error error) :
    error = .assertion ∨ ∃ failures, error = .circuitOpen failures := by
  rcases hbefore : s.beforeCall W with ⟨r, s₁⟩
  rw [hbefore] at h
  rcases beforeCall_cases hbefore with ⟨-, hok, -⟩ | ⟨b, b₁, w₁, -, hadmission, -⟩
  · cases hok.symm.trans h
  · cases h
    cases hadmission with
    | asserts => exact .inl rfl
    | refuses => exact .inr ⟨_, rfl⟩

end RetryState

theorem timeSleep_error {delay : Delay} {error : RetryError ε}
    (h : timeSleep W delay w = .error error) : ¬delay.Sleeps ∧ error = .sleepRefused := by
  rw [timeSleep] at h
  split at h
  · cases h
  · rename_i hrefused
    cases h
    exact ⟨hrefused, rfl⟩

theorem timeSleep_ok {delay : Delay} (h : timeSleep (ε := ε) W delay w = .ok w') :
    w' = W.elapse delay w := by
  rw [timeSleep] at h
  split at h
  · cases h
    rfl
  · cases h

namespace RetryCall

/-- The loop with the sleep left open. -/
def retryFrom (W : RetryWorld ω) (sleep : Delay → ω → Except (RetryError ε) ω)
    (c : RetryCall ω ε α) :
    ℕ → ℕ → Option ε → RetryState ω ε → Except (RetryError ε) α × RetryState ω ε
  | _, 0, lastExc, s => (outOfAttempts lastExc, s)
  | attempt, left + 1, _, s =>
    match s.beforeCall W with
    | (.error e, s) => (.error e, s)
    | (.ok checkedAt, s) =>
      match c.operation s.world with
      | (.ok result, w) => (.ok result, { s with world := w }.onSuccess checkedAt)
      | (.error e, w) =>
        let s := { s with world := w }.onFailure W checkedAt e
        if c.givesUp attempt e then (.error (.raised e), s)
        else
          match c.nextDelay W attempt e s with
          | (none, s) => (.error .overflow, s)
          | (some delay, s) =>
            match sleep delay s.world with
            | .error e => (.error e, s)
            | .ok w => retryFrom W sleep c (attempt + 1) left (some e) { s with world := w }

/-- Between two attempts nothing but the world changes, and there is a delay but where it would
have to be calculated too late. -/
theorem nextDelay_cases (W : RetryWorld ω) (c : RetryCall ω ε α) (attempt : ℕ) (e : ε)
    (s : RetryState ω ε) :
    (∃ w, c.nextDelay W attempt e s = (none, { s with world := w }) ∧
      floatOverflow ≤ attempt ∧ c.getRetryAfter.bind (· e) = none) ∨
    ∃ delay w, c.nextDelay W attempt e s = (some delay, { s with world := w }) ∧
      (floatOverflow ≤ attempt → c.getRetryAfter.bind (· e) ≠ none) := by
  unfold nextDelay computeDelay
  cases c.getRetryAfter.bind (· e) with
  | some delay => exact .inr ⟨_, _, rfl, by simp⟩
  | none =>
    dsimp only
    split_ifs with hlate
    · exact .inl ⟨_, rfl, hlate, rfl⟩
    all_goals exact .inr ⟨_, _, rfl, fun h => absurd h hlate⟩

/-- One turn of the loop: what it ends the call with, or the error and the state that the next
turn starts with. -/
inductive Turn (W : RetryWorld ω) (sleep : Delay → ω → Except (RetryError ε) ω)
    (c : RetryCall ω ε α) (attempt : ℕ) (s : RetryState ω ε) :
    (Except (RetryError ε) α × RetryState ω ε) ⊕ (ε × RetryState ω ε) → Prop
  | refused {error : RetryError ε} {s₁ : RetryState ω ε}
      (hbefore : s.beforeCall W = (.error error, s₁)) :
      Turn W sleep c attempt s (.inl (.error error, s₁))
  | returned {checkedAt : Option Seconds} {s₁ : RetryState ω ε} {result : α} {w : ω}
      (hbefore : s.beforeCall W = (.ok checkedAt, s₁))
      (hoperation : c.operation s₁.world = (.ok result, w)) :
      Turn W sleep c attempt s (.inl (.ok result, { s₁ with world := w }.onSuccess checkedAt))
  | raised {checkedAt : Option Seconds} {s₁ : RetryState ω ε} {e : ε} {w : ω}
      (hbefore : s.beforeCall W = (.ok checkedAt, s₁))
      (hoperation : c.operation s₁.world = (.error e, w)) (hends : c.givesUp attempt e) :
      Turn W sleep c attempt s
        (.inl (.error (.raised e), { s₁ with world := w }.onFailure W checkedAt e))
  | overflow {checkedAt : Option Seconds} {s₁ : RetryState ω ε} {e : ε} {w w₂ : ω}
      (hbefore : s.beforeCall W = (.ok checkedAt, s₁))
      (hoperation : c.operation s₁.world = (.error e, w)) (hgoes : ¬c.givesUp attempt e)
      (hdelay : c.nextDelay W attempt e ({ s₁ with world := w }.onFailure W checkedAt e) =
        (none, { { s₁ with world := w }.onFailure W checkedAt e with world := w₂ }))
      (hlate : floatOverflow ≤ attempt) (hunknown : c.getRetryAfter.bind (· e) = none) :
      Turn W sleep c attempt s
        (.inl (.error .overflow,
          { { s₁ with world := w }.onFailure W checkedAt e with world := w₂ }))
  | sleepless {checkedAt : Option Seconds} {s₁ : RetryState ω ε} {e : ε} {w w₂ : ω}
      {delay : Delay} {error : RetryError ε} (hbefore : s.beforeCall W = (.ok checkedAt, s₁))
      (hoperation : c.operation s₁.world = (.error e, w)) (hgoes : ¬c.givesUp attempt e)
      (hdelay : c.nextDelay W attempt e ({ s₁ with world := w }.onFailure W checkedAt e) =
        (some delay, { { s₁ with world := w }.onFailure W checkedAt e with world := w₂ }))
      (hsleep : sleep delay w₂ = .error error) :
      Turn W sleep c attempt s
        (.inl (.error error, { { s₁ with world := w }.onFailure W checkedAt e with world := w₂ }))
  | retried {checkedAt : Option Seconds} {s₁ : RetryState ω ε} {e : ε} {w w₂ w₃ : ω}
      {delay : Delay} (hbefore : s.beforeCall W = (.ok checkedAt, s₁))
      (hoperation : c.operation s₁.world = (.error e, w)) (hgoes : ¬c.givesUp attempt e)
      (hdelay : c.nextDelay W attempt e ({ s₁ with world := w }.onFailure W checkedAt e) =
        (some delay, { { s₁ with world := w }.onFailure W checkedAt e with world := w₂ }))
      (hknown : floatOverflow ≤ attempt → c.getRetryAfter.bind (· e) ≠ none)
      (hsleep : sleep delay w₂ = .ok w₃) :
      Turn W sleep c attempt s
        (.inr (e, { { s₁ with world := w }.onFailure W checkedAt e with world := w₃ }))

/-- The loop is its turns. -/
theorem retryFrom_turn (W : RetryWorld ω) (sleep : Delay → ω → Except (RetryError ε) ω)
    (c : RetryCall ω ε α) (attempt : ℕ) (s : RetryState ω ε) :
    ∃ t, c.Turn W sleep attempt s t ∧ ∀ left lastExc,
      c.retryFrom W sleep attempt (left + 1) lastExc s =
        t.elim id fun next => c.retryFrom W sleep (attempt + 1) left (some next.1) next.2 := by
  rcases hbefore : s.beforeCall W with ⟨error | checkedAt, s₁⟩
  · refine ⟨_, .refused hbefore, fun left lastExc => ?_⟩
    simp [retryFrom, hbefore]
  rcases hoperation : c.operation s₁.world with ⟨e | result, w⟩
  swap
  · refine ⟨_, .returned hbefore hoperation, fun left lastExc => ?_⟩
    simp [retryFrom, hbefore, hoperation]
  by_cases hends : c.givesUp attempt e
  · refine ⟨_, .raised hbefore hoperation hends, fun left lastExc => ?_⟩
    simp [retryFrom, hbefore, hoperation, hends]
  obtain ⟨w₂, hdelay, hlate, hunknown⟩ | ⟨delay, w₂, hdelay, hknown⟩ :=
    c.nextDelay_cases W attempt e ({ s₁ with world := w }.onFailure W checkedAt e)
  · refine ⟨_, .overflow hbefore hoperation hends hdelay hlate hunknown, fun left lastExc => ?_⟩
    simp [retryFrom, hbefore, hoperation, hends, hdelay]
  rcases hsleep : sleep delay w₂ with error | w₃
  · refine ⟨_, .sleepless hbefore hoperation hends hdelay hsleep, fun left lastExc => ?_⟩
    simp [retryFrom, hbefore, hoperation, hends, hdelay, hsleep]
  · refine ⟨_, .retried hbefore hoperation hends hdelay hknown hsleep, fun left lastExc => ?_⟩
    simp [retryFrom, hbefore, hoperation, hends, hdelay, hsleep]

theorem retrySyncFrom_eq (W : RetryWorld ω) (c : RetryCall ω ε α) (attempt left : ℕ)
    (lastExc : Option ε) (s : RetryState ω ε) :
    c.retrySyncFrom W attempt left lastExc s =
      c.retryFrom W (timeSleep W) attempt left lastExc s := by
  induction left generalizing attempt lastExc s with
  | zero => rfl
  | succ left ih =>
    have hrest : c.retrySyncFrom W (attempt + 1) left =
        c.retryFrom W (timeSleep W) (attempt + 1) left := by
      funext lastExc s
      exact ih _ _ _
    unfold retrySyncFrom retryFrom
    exact hrest ▸ rfl

@[simp] theorem runAlone_finished (W : RetryWorld ω) (c : RetryCall ω ε α) (fuel : ℕ)
    (result : Except (RetryError ε) α) (s : RetryState ω ε) :
    c.runAlone W fuel (.finished result) s = some (result, s) := by
  cases fuel <;> rfl

/-- Resumed at each of its awaits, the task does what the loop does. -/
theorem runAlone_enterLoop (W : RetryWorld ω) (c : RetryCall ω ε α) (n : ℕ)
    (hleft : attempt + left = c.config.maxAttempts.toNat) (lastExc : Option ε)
    (s : RetryState ω ε) :
    c.runAlone W (2 * left + n) (c.enterLoop W attempt lastExc s).1
        (c.enterLoop W attempt lastExc s).2 =
      some (c.retryFrom W (fun delay w => .ok (asyncioSleep W delay w)) attempt left lastExc
        s) := by
  induction left generalizing attempt lastExc s with
  | zero =>
    have hend : ¬(attempt : ℤ) < c.config.maxAttempts := by omega
    simp [enterLoop, hend, retryFrom]
  | succ left ih =>
    have hgo : (attempt : ℤ) < c.config.maxAttempts := by omega
    have hfuel : 2 * (left + 1) + n = (2 * left + n) + 1 + 1 := by omega
    simp only [enterLoop, hgo, if_true, hfuel]
    unfold retryFrom
    rcases s.beforeCall W with ⟨e | checkedAt, s⟩
    · simp
    · rcases hoperation : c.operation s.world with ⟨e | result, w⟩
      · simp only [runAlone, hoperation, operationDone]
        split
        · exact runAlone_finished W c _ _ _
        · obtain ⟨w', hdelay, -⟩ | ⟨delay, w', hdelay, -⟩ :=
            c.nextDelay_cases W attempt e ({ s with world := w }.onFailure W checkedAt e)
          · rw [hdelay]
            exact runAlone_finished W c _ _ _
          · rw [hdelay]
            simp only [runAlone]
            exact ih (by omega) _ _
      · simp only [runAlone, hoperation, operationDone]

theorem retryAsyncAlone_eq (W : RetryWorld ω) (c : RetryCall ω ε α) (s : RetryState ω ε) :
    c.retryAsyncAlone W s = some (c.retryFrom W (fun delay w => .ok (asyncioSleep W delay w)) 0
      c.config.maxAttempts.toNat none s) :=
  c.runAlone_enterLoop W 0 (Nat.zero_add _) none s

/-- How many operations of a call run, and how the last of them ends it. -/
structure EndsAt (c : RetryCall ω ε α) (limit : ℕ) (attempts : List (Attempt ε))
    (result : Except (RetryError ε) α) : Prop where
  length_le : attempts.length ≤ limit
  retried : ∀ a ∈ attempts.dropLast, ∃ e, a.failure = some e ∧ c.isRetryable e
  returned : (∃ r, result = .ok r) ↔ ∃ last ∈ attempts.getLast?, last.failure = none
  raised : ∀ e, result = .error (.raised e) → ∃ last ∈ attempts.getLast?, last.failure = some e

/-- A call that no operation has run for. -/
theorem EndsAt.nil (c : RetryCall ω ε α) (limit : ℕ) (h : ∀ e, error ≠ .raised e) :
    c.EndsAt limit [] (.error error) := by
  refine ⟨Nat.zero_le _, by simp, by simp, ?_⟩
  intro e he
  exact absurd (Except.error.inj he) (h e)

/-- An operation that has failed and ends the call. -/
theorem EndsAt.failed {c : RetryCall ω ε α} {a : Attempt ε} (hfailure : a.failure = some e)
    (h : ∀ e', error = .raised e' → e' = e) : c.EndsAt (limit + 1) [a] (.error error) := by
  refine ⟨by simp, by simp, by simp [hfailure], ?_⟩
  intro e' he
  rw [h e' (Except.error.inj he)]
  simp [hfailure]

/-- A retried operation before those of the rest of the loop. -/
theorem EndsAt.cons {c : RetryCall ω ε α} {a : Attempt ε} (h : c.EndsAt limit attempts result)
    (hfailure : a.failure = some e) (hretry : c.isRetryable e) :
    c.EndsAt (limit + 1) (a :: attempts) result := by
  rcases attempts with _ | ⟨b, attempts⟩
  · refine ⟨by simp, by simp, ?_, ?_⟩
    · rw [h.returned]
      simp [hfailure]
    · intro e he
      obtain ⟨last, hm, _⟩ := h.raised e he
      cases hm
  · refine ⟨Nat.succ_le_succ h.length_le, ?_, ?_, ?_⟩
    · intro a' hm
      rw [List.dropLast_cons_cons] at hm
      rcases List.mem_cons.mp hm with rfl | hm
      · exact ⟨e, hfailure, hretry⟩
      · exact h.retried a' hm
    · rw [h.returned, List.getLast?_cons_cons]
    · rw [List.getLast?_cons_cons]
      exact h.raised

end RetryCall

/-- A property of the breaker and its log that no attempt and nothing in between breaks. -/
structure KeptByAttempts (W : RetryWorld ω) (P : RetryState ω ε → Prop) : Prop where
  world : ∀ {s} w, P s → P { s with world := w }
  refused : ∀ {s e s₁}, P s → s.beforeCall W = (.error e, s₁) → P s₁
  succeeded : ∀ {s checkedAt s₁} w, P s → s.beforeCall W = (.ok checkedAt, s₁) →
    P ({ s₁ with world := w }.onSuccess checkedAt)
  failed : ∀ {s checkedAt s₁} e w, P s → s.beforeCall W = (.ok checkedAt, s₁) →
    P ({ s₁ with world := w }.onFailure W checkedAt e)

namespace KeptByAttempts

variable {P : RetryState ω ε → Prop}

/-- Whatever the operations of a loop come to, it keeps what its attempts keep. -/
theorem retryFrom (h : KeptByAttempts W P) (sleep : Delay → ω → Except (RetryError ε) ω)
    (c : RetryCall ω ε α) (attempt left : ℕ) (lastExc : Option ε) (s : RetryState ω ε) (hs : P s) :
    P (c.retryFrom W sleep attempt left lastExc s).2 := by
  induction left generalizing attempt lastExc s with
  | zero => exact hs
  | succ left ih =>
    obtain ⟨t, ht, hturn⟩ := c.retryFrom_turn W sleep attempt s
    rw [hturn]
    cases ht with
    | refused hbefore => exact h.refused hs hbefore
    | returned hbefore => exact h.succeeded _ hs hbefore
    | raised hbefore => exact h.failed _ _ hs hbefore
    | overflow hbefore => exact h.world _ (h.failed _ _ hs hbefore)
    | sleepless hbefore => exact h.world _ (h.failed _ _ hs hbefore)
    | retried hbefore => exact ih _ _ _ (h.world _ (h.failed _ _ hs hbefore))

theorem retrySync (h : KeptByAttempts W P) (c : RetryCall ω ε α) (s : RetryState ω ε) (hs : P s) :
    P (c.retrySync W s).2 := by
  rw [RetryCall.retrySync, RetryCall.retrySyncFrom_eq]
  exact h.retryFrom _ c _ _ _ s hs

theorem retryAsyncAlone (h : KeptByAttempts W P) {c : RetryCall ω ε α} {s : RetryState ω ε}
    (hs : P s) (hrun : c.retryAsyncAlone W s = some (result, s')) : P s' := by
  rw [c.retryAsyncAlone_eq, Option.some.injEq] at hrun
  have hloop := h.retryFrom (fun delay w => .ok (asyncioSleep W delay w)) c 0
    c.config.maxAttempts.toNat none s hs
  rw [hrun] at hloop
  exact hloop

end KeptByAttempts

end FuturesBot
