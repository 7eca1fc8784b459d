import FuturesBot.Core.BreakerRuns

namespace FuturesBot

variable {ω ε α : Type} {W : RetryWorld ω}

namespace RetryState

/-- The time of opening is known while the circuit is open. -/
def WellFormed (s : RetryState ω ε) : Prop :=
  ∀ b ∈ s.breaker, b.state = .open → b.openedAt.isSome

/-- A call that is not let through has met an open circuit. -/
theorem WellFormed.circuitOpen {s : RetryState ω ε} (h : s.WellFormed)
    (hrefused : (s.beforeCall W).1 = .error error) : ∃ failures, error = .circuitOpen failures := by
  rcases hbefore : s.beforeCall W with ⟨r, s₁⟩
  rw [hbefore] at hrefused
  rcases beforeCall_cases hbefore with ⟨-, hok, -⟩ | ⟨b, b₁, w₁, hbreaker, hadmission, -⟩
  · cases hok.symm.trans hrefused
  · cases hrefused
    cases hadmission with
    | asserts hopen hopened =>
      have hknown := h b hbreaker hopen
      rw [hopened] at hknown
      cases hknown
    | refuses => exact ⟨_, rfl⟩

theorem WellFormed.refused {s s₁ : RetryState ω ε} (h : s.WellFormed)
    (hbefore : s.beforeCall W = (.error e, s₁)) : s₁.WellFormed := by
  rcases beforeCall_cases hbefore with ⟨-, hok, -⟩ | ⟨b, b₁, w₁, hbreaker, hadmission, rfl⟩
  · cases hok
  · obtain rfl := hadmission.of_error
    intro b hb
    cases hb
    exact h _ hbreaker

/-- The circuit is not open while an operation runs. -/
theorem beforeCall_admits {s s₁ : RetryState ω ε} (hbefore : s.beforeCall W = (.ok checkedAt, s₁)) :
    ∀ b ∈ s₁.breaker, b.state ≠ .open := by
  rcases beforeCall_cases hbefore with ⟨hnone, -, rfl⟩ | ⟨b, b₁, w₁, -, hadmission, rfl⟩
  · simp [hnone]
  · intro b hb
    cases hb
    cases hadmission with
    | passes hstate => exact hstate
    | probes => simp

theorem wellFormed_kept (W : RetryWorld ω) : KeptByAttempts (ε := ε) W WellFormed where
  world _ h := h
  refused := WellFormed.refused
  succeeded := by
    intro s checkedAt s₁ w _ _ b hb hopen
    obtain ⟨b', -, rfl⟩ := Option.map_eq_some_iff.mp hb
    cases hopen
  failed := by
    intro s checkedAt s₁ e w _ hbefore b hb hopen
    have hadmits := beforeCall_admits hbefore
    rcases hbreaker : s₁.breaker with _ | b₁
    · simp only [onFailure, hbreaker] at hb
      cases hb
    · simp only [onFailure, hbreaker] at hb
      cases hb
      unfold CircuitBreaker.onFailure at hopen ⊢
      dsimp only at hopen ⊢
      split at hopen
      · rename_i htrips
        rw [if_pos htrips]
        rfl
      · exact absurd hopen (hadmits b₁ hbreaker)

end RetryState

namespace RetryCall

/-- What a call has come to in the world that it leaves. A result is that of the last thing that
has happened in it; every error has an origin. -/
inductive Outcome (W : RetryWorld ω) (P : RetryState ω ε → Prop) (c : RetryCall ω ε α) (w : ω) :
    Except (RetryError ε) α → Prop
  | returned {w₀ : ω} {r : α} (h : c.operation w₀ = (.ok r, w)) : Outcome W P c w (.ok r)
  | raised {w₀ : ω} {e : ε} (h : (c.operation w₀).1 = .error e) :
      Outcome W P c w (.error (.raised e))
  | refused {s : RetryState ω ε} {error : RetryError ε} (hs : P s)
      (h : (s.beforeCall W).1 = .error error) : Outcome W P c w (.error error)
  | overflow {attempt : ℕ} (hmore : (attempt : ℤ) < c.config.maxAttempts)
      (hlate : floatOverflow ≤ attempt) : Outcome W P c w (.error .overflow)
  | sleepless {attempt : ℕ} {e : ε} {s : RetryState ω ε}
      (h : ∃ delay ∈ (c.nextDelay W attempt e s).1, ¬delay.Sleeps) :
      Outcome W P c w (.error .sleepRefused)
  | noAttempt (h : c.config.maxAttempts ≤ 0) : Outcome W P c w (.error .assertion)

variable {P : RetryState ω ε → Prop} {c : RetryCall ω ε α}

theorem retryFrom_outcome (hP : KeptByAttempts W P) {attempt left : ℕ} {lastExc : Option ε}
    (hlast : ∀ e ∈ lastExc, ∃ w, (c.operation w).1 = .error e)
    (hfirst : lastExc = none → attempt = 0) (hleft : attempt + left = c.config.maxAttempts.toNat)
    {s : RetryState ω ε} (hs : P s) :
    Outcome W P c (c.retryFrom W (timeSleep W) attempt left lastExc s).2.world
      (c.retryFrom W (timeSleep W) attempt left lastExc s).1 := by
  induction left generalizing attempt lastExc s with
  | zero =>
    cases lastExc with
    | none =>
      refine .noAttempt ?_
      have hzero := hfirst rfl
      omega
    | some e =>
      obtain ⟨w, hw⟩ := hlast e rfl
      exact .raised hw
  | succ left ih =>
    obtain ⟨t, ht, hturn⟩ := c.retryFrom_turn W (timeSleep W) attempt s
    rw [hturn]
    cases ht with
    | refused hbefore => exact .refused hs (congrArg Prod.fst hbefore)
    | returned _ hoperation => exact .returned hoperation
    | raised _ hoperation => exact .raised (congrArg Prod.fst hoperation)
    | overflow _ _ _ _ hlate => exact .overflow (by omega) hlate
    | sleepless _ _ _ hdelay hsleep =>
      obtain ⟨hrefused, rfl⟩ := timeSleep_error hsleep
      exact .sleepless ⟨_, congrArg Prod.fst hdelay, hrefused⟩
    | retried hbefore hoperation =>
      refine ih ?_ (by simp) (by omega) (hP.world _ (hP.failed _ _ hs hbefore))
      intro e he
      cases he
      exact ⟨_, congrArg Prod.fst hoperation⟩

theorem retrySync_outcome (hP : KeptByAttempts W P) (c : RetryCall ω ε α) {s : RetryState ω ε}
    (hs : P s) : Outcome W P c (c.retrySync W s).2.world (c.retrySync W s).1 := by
  rw [retrySync, retrySyncFrom_eq]
  exact retryFrom_outcome hP (by simp) (fun _ => rfl) (Nat.zero_add _) hs

end RetryCall

theorem KeptByAttempts.trivial (W : RetryWorld ω) : KeptByAttempts (ε := ε) W fun _ => True where
  world _ _ := ⟨⟩
  refused _ _ := ⟨⟩
  succeeded _ _ _ := ⟨⟩
  failed _ _ _ _ := ⟨⟩

/-- A property of the world that no clock and no waiting breaks. -/
structure KeptByClocks (W : RetryWorld ω) (Q : ω → Prop) : Prop where
  monotonic : ∀ {w}, Q w → Q (W.monotonic w).2
  uniform : ∀ {low high w}, Q w → Q (W.uniform low high w).2
  elapse : ∀ {delay w}, Q w → Q (W.elapse delay w)

namespace KeptByClocks

variable {Q : ω → Prop} {s : RetryState ω ε}

theorem beforeCall (h : KeptByClocks W Q) (hs : Q s.world) : Q (s.beforeCall W).2.world := by
  rcases hbefore : s.beforeCall W with ⟨r, s₁⟩
  rcases RetryState.beforeCall_cases hbefore with
    ⟨-, -, rfl⟩ | ⟨b, b₁, w₁, -, hadmission, rfl⟩
  · exact hs
  · cases hadmission with
    | passes => exact hs
    | asserts => exact hs
    | refuses => exact h.monotonic hs
    | probes => exact h.monotonic hs

theorem onFailure (h : KeptByClocks W Q) (hs : Q s.world) (checkedAt : Option Seconds) (e : ε) :
    Q (s.onFailure W checkedAt e).world := by
  unfold RetryState.onFailure
  cases s.breaker with
  | none => exact hs
  | some b =>
    simp only [CircuitBreaker.onFailure]
    split
    · exact h.monotonic hs
    · exact hs

theorem computeDelay (h : KeptByClocks W Q) (hw : Q w) (attempt : ℕ) (config : RetryConfig)
    (retryAfter : Option Delay) : Q (computeDelay W attempt config retryAfter w).2 := by
  unfold FuturesBot.computeDelay
  cases retryAfter with
  | some delay => exact hw
  | none =>
    dsimp only
    split
    · exact hw
    · split
      · exact hw
      · exact h.uniform hw

theorem nextDelay (h : KeptByClocks W Q) {c : RetryCall ω ε α}
    (honRetry : ∀ f ∈ c.onRetry, ∀ n delay e w, Q w → Q (f n delay e w)) (hs : Q s.world)
    (attempt : ℕ) (e : ε) : Q (c.nextDelay W attempt e s).2.world := by
  have hdelay := h.computeDelay hs attempt c.config (c.getRetryAfter.bind (· e))
  unfold RetryCall.nextDelay
  rcases hcompute : FuturesBot.computeDelay W attempt c.config (c.getRetryAfter.bind (· e)) s.world
    with ⟨_ | delay, w⟩
  · rw [hcompute] at hdelay
    exact hdelay
  · rw [hcompute] at hdelay
    rcases hretry : c.onRetry with _ | f
    · exact hdelay
    · exact honRetry f hretry _ _ _ _ hdelay

/-- A failed operation, and the time up to the next, keep what the clocks keep. -/
theorem retried (h : KeptByClocks W Q) {c : RetryCall ω ε α}
    (honRetry : ∀ f ∈ c.onRetry, ∀ n delay e w, Q w → Q (f n delay e w)) (hs : Q s.world)
    (hdelay : c.nextDelay W attempt e (s.onFailure W checkedAt e) = (delay, s₂)) : Q s₂.world := by
  have hdelayed := h.nextDelay honRetry (h.onFailure hs checkedAt e) attempt e
  rwa [hdelay] at hdelayed

/-- A call keeps what the clocks, the operation and the callback keep. -/
theorem retryFrom (h : KeptByClocks W Q) {c : RetryCall ω ε α}
    (hoperation : ∀ w, Q w → Q (c.operation w).2)
    (honRetry : ∀ f ∈ c.onRetry, ∀ n delay e w, Q w → Q (f n delay e w))
    (attempt left : ℕ) (lastExc : Option ε) (hs : Q s.world) :
    Q (c.retryFrom W (timeSleep W) attempt left lastExc s).2.world := by
  induction left generalizing attempt lastExc s with
  | zero => exact hs
  | succ left ih =>
    have hran : ∀ {checkedAt s₁ r w}, s.beforeCall W = (.ok checkedAt, s₁) →
        c.operation s₁.world = (r, w) → Q w := by
      intro checkedAt s₁ r w hcall hrun
      have hbefore := h.beforeCall hs
      rw [hcall] at hbefore
      have hdone := hoperation _ hbefore
      rwa [hrun] at hdone
    obtain ⟨t, ht, hturn⟩ := c.retryFrom_turn W (timeSleep W) attempt s
    rw [hturn]
    cases ht with
    | refused hcall =>
      have hbefore := h.beforeCall hs
      rwa [hcall] at hbefore
    | returned hcall hrun => exact hran hcall hrun
    | @raised _ s₁ _ w hcall hrun =>
      exact h.onFailure (s := { s₁ with world := w }) (hran hcall hrun) _ _
    | @overflow _ s₁ _ w _ hcall hrun _ hdelay =>
      exact h.retried (s := { s₁ with world := w }) honRetry (hran hcall hrun) hdelay
    | @sleepless _ s₁ _ w _ _ _ hcall hrun _ hdelay =>
      exact h.retried (s := { s₁ with world := w }) honRetry (hran hcall hrun) hdelay
    | @retried _ s₁ _ w _ _ _ hcall hrun _ hdelay _ hsleep =>
      obtain rfl := timeSleep_ok hsleep
      exact ih _ _ (h.elapse
        (h.retried (s := { s₁ with world := w }) honRetry (hran hcall hrun) hdelay))

theorem retrySync (h : KeptByClocks W Q) {c : RetryCall ω ε α}
    (hoperation : ∀ w, Q w → Q (c.operation w).2)
    (honRetry : ∀ f ∈ c.onRetry, ∀ n delay e w, Q w → Q (f n delay e w)) (hs : Q s.world) :
    Q (c.retrySync W s).2.world := by
  rw [RetryCall.retrySync, RetryCall.retrySyncFrom_eq]
  exact h.retryFrom hoperation honRetry _ _ _ hs

end KeptByClocks

end FuturesBot
