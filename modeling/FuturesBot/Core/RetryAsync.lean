import FuturesBot.Core.RetryOutcomes

namespace FuturesBot

variable {ω ε α τ : Type} {W : RetryWorld ω}

namespace RetryCall

/-- `retry_async` with nothing beside it. -/
def retryAsync (W : RetryWorld ω) (c : RetryCall ω ε α) (s : RetryState ω ε) :
    Except (RetryError ε) α × RetryState ω ε :=
  c.retryFrom W (fun delay w => .ok (asyncioSleep W delay w)) 0 c.config.maxAttempts.toNat none s

/-- It is what the task comes to that is resumed at each of its awaits. -/
theorem retryAsyncAlone_eq_retryAsync (W : RetryWorld ω) (c : RetryCall ω ε α)
    (s : RetryState ω ε) : c.retryAsyncAlone W s = some (c.retryAsync W s) :=
  c.retryAsyncAlone_eq W s

/-- Each operation adds what it has seen to a history that nothing else touches, and its result
is that of what it has seen. -/
structure Traced (W : RetryWorld ω) (c : RetryCall ω ε α) (history : ω → List τ)
    (result : τ → Except ε α) : Prop where
  operation : ∀ w, ∃ seen, (c.operation w).1 = result seen ∧
    history (c.operation w).2 = history w ++ [seen]
  clocks : ∀ l, KeptByClocks W fun w => history w = l
  onRetry : ∀ f ∈ c.onRetry, ∀ n delay e w, history (f n delay e w) = history w

/-- There is another attempt to wait for, and no way to know for how long. -/
def TooLate (c : RetryCall ω ε α) (attempt : ℕ) (e : ε) : Prop :=
  floatOverflow ≤ attempt ∧ ¬c.givesUp attempt e ∧ c.getRetryAfter.bind (· e) = none

instance (c : RetryCall ω ε α) (attempt : ℕ) (e : ε) : Decidable (c.TooLate attempt e) :=
  inferInstanceAs (Decidable (_ ∧ _))

/-- How a call ends from an attempt on, by what its operations have seen: with the result of the
last, or of none, and every one before it was worth a retry. -/
inductive Ending (W : RetryWorld ω) (P : RetryState ω ε → Prop) (c : RetryCall ω ε α)
    (result : τ → Except ε α) : ℕ → List τ → Except (RetryError ε) α → Prop
  | returned {attempt : ℕ} {seen : τ} {r : α} (h : result seen = .ok r) :
      Ending W P c result attempt [seen] (.ok r)
  | raised {attempt : ℕ} {seen : τ} {e : ε} (h : result seen = .error e)
      (hends : c.givesUp attempt e) : Ending W P c result attempt [seen] (.error (.raised e))
  | refused {attempt : ℕ} {s : RetryState ω ε} {error : RetryError ε} (hs : P s)
      (h : (s.beforeCall W).1 = .error error) : Ending W P c result attempt [] (.error error)
  | noAttempt {attempt : ℕ} (h : c.config.maxAttempts ≤ 0) :
      Ending W P c result attempt [] (.error .assertion)
  | overflow {attempt : ℕ} {seen : τ} {e : ε} (h : result seen = .error e)
      (hlate : c.TooLate attempt e) : Ending W P c result attempt [seen] (.error .overflow)
  | retried {attempt : ℕ} {seen : τ} {e : ε} {later : List τ} {final : Except (RetryError ε) α}
      (h : result seen = .error e) (hretry : c.isRetryable e) (hintime : ¬c.TooLate attempt e)
      (hrest : Ending W P c result (attempt + 1) later final) :
      Ending W P c result attempt (seen :: later) final

variable {P : RetryState ω ε → Prop} {c : RetryCall ω ε α} {history : ω → List τ}
  {result : τ → Except ε α}

theorem Traced.beforeCall (h : c.Traced W history result) (s : RetryState ω ε) :
    history (s.beforeCall W).2.world = history s.world :=
  (h.clocks _).beforeCall rfl

theorem Traced.onFailure (h : c.Traced W history result) (s : RetryState ω ε)
    (checkedAt : Option Seconds) (e : ε) :
    history (s.onFailure W checkedAt e).world = history s.world :=
  (h.clocks _).onFailure rfl checkedAt e

theorem Traced.nextDelay (h : c.Traced W history result) (attempt : ℕ) (e : ε)
    (s : RetryState ω ε) : history (c.nextDelay W attempt e s).2.world = history s.world := by
  refine (h.clocks (history s.world)).nextDelay ?_ rfl attempt e
  intro f hf n delay e w hw
  exact (h.onRetry f hf n delay e w).trans hw

theorem Traced.retried (h : c.Traced W history result) {s s₂ : RetryState ω ε}
    (hdelay : c.nextDelay W attempt e (s.onFailure W checkedAt e) = (delay, s₂)) :
    history s₂.world = history s.world := by
  have hunseen := h.nextDelay attempt e (s.onFailure W checkedAt e)
  rw [hdelay] at hunseen
  exact hunseen.trans (h.onFailure s checkedAt e)

/-- With an error to fall back on there is an attempt left. -/
theorem retryFrom_ending (hP : KeptByAttempts W P) (hc : c.Traced W history result)
    {attempt left : ℕ} (hleft : attempt + left = c.config.maxAttempts.toNat)
    {lastExc : Option ε} (hlast : lastExc.isSome → 0 < left) (hfirst : lastExc = none → attempt = 0)
    {s : RetryState ω ε} (hs : P s) :
    ∃ seen, history (c.retryFrom W (fun delay w => .ok (asyncioSleep W delay w)) attempt left
        lastExc s).2.world = history s.world ++ seen ∧
      Ending W P c result attempt seen
        (c.retryFrom W (fun delay w => .ok (asyncioSleep W delay w)) attempt left lastExc s).1 := by
  induction left generalizing attempt lastExc s with
  | zero =>
    cases lastExc with
    | none =>
      have hzero := hfirst rfl
      exact ⟨[], (List.append_nil _).symm, .noAttempt (by omega)⟩
    | some e => exact absurd (hlast rfl) (Nat.lt_irrefl 0)
  | succ left ih =>
    have hbefore := hc.beforeCall s
    have hran : ∀ {checkedAt s₁ r w}, s.beforeCall W = (.ok checkedAt, s₁) →
        c.operation s₁.world = (r, w) → ∃ seen, r = result seen ∧
          history w = history s.world ++ [seen] := by
      intro checkedAt s₁ r w hcall hrun
      rw [hcall] at hbefore
      obtain ⟨seen, hresult, hseen⟩ := hc.operation s₁.world
      rw [hrun] at hresult hseen
      exact ⟨seen, hresult, hseen.trans (congrArg (· ++ [seen]) hbefore)⟩
    obtain ⟨t, ht, hturn⟩ :=
      c.retryFrom_turn W (fun delay w => .ok (asyncioSleep W delay w)) attempt s
    rw [hturn]
    cases ht with
    | refused hcall =>
      rw [hcall] at hbefore
      exact ⟨[], by simpa using hbefore, .refused hs (congrArg Prod.fst hcall)⟩
    | returned hcall hrun =>
      obtain ⟨seen, hresult, hseen⟩ := hran hcall hrun
      exact ⟨[seen], hseen, .returned hresult.symm⟩
    | @raised _ s₁ e w hcall hrun hends =>
      obtain ⟨seen, hresult, hseen⟩ := hran hcall hrun
      exact ⟨[seen], (hc.onFailure { s₁ with world := w } _ e).trans hseen,
        .raised hresult.symm hends⟩
    | @overflow _ s₁ e w _ hcall hrun hgoes hdelay hlate hunknown =>
      obtain ⟨seen, hresult, hseen⟩ := hran hcall hrun
      refine ⟨[seen], ?_, .overflow hresult.symm ⟨hlate, hgoes, hunknown⟩⟩
      exact (hc.retried (s := { s₁ with world := w }) hdelay).trans hseen
    | sleepless _ _ _ _ hsleep => cases hsleep
    | @retried _ s₁ e w w₂ _ delay hcall hrun hgoes hdelay hknown hsleep =>
      cases hsleep
      obtain ⟨seen, hresult, hseen⟩ := hran hcall hrun
      obtain ⟨hretry, hmore⟩ := not_or.mp hgoes
      have hintime : ¬c.TooLate attempt e := fun ⟨hlate, _, hunknown⟩ => hknown hlate hunknown
      obtain ⟨later, hlater, hrest⟩ := ih (by omega : attempt + 1 + left = _)
        (fun _ => by omega) (by simp : some e = none → attempt + 1 = 0)
        (hP.world (asyncioSleep W delay w₂) (hP.failed e w hs hcall))
      refine ⟨seen :: later, ?_, .retried hresult.symm (by simpa using hretry) hintime hrest⟩
      refine hlater.trans ?_
      change history (W.elapse _ _) ++ later = _
      rw [(hc.clocks _).elapse (hc.retried (s := { s₁ with world := w }) hdelay), hseen,
        List.append_assoc]
      rfl

theorem retryAsync_ending (hP : KeptByAttempts W P) (hc : c.Traced W history result)
    {s : RetryState ω ε} (hs : P s) :
    ∃ seen, history (c.retryAsync W s).2.world = history s.world ++ seen ∧
      Ending W P c result 0 seen (c.retryAsync W s).1 :=
  retryFrom_ending hP hc (Nat.zero_add _) (by simp) (fun _ => rfl) hs

/-- Without an attempt there is no error to raise again. -/
theorem retryAsync_noAttempt (h : c.config.maxAttempts ≤ 0) (s : RetryState ω ε) :
    c.retryAsync W s = (.error .assertion, s) := by
  have hnone : c.config.maxAttempts.toNat = 0 := by omega
  rw [retryAsync, hnone]
  rfl

end RetryCall

theorem KeptByAttempts.retryAsync (h : KeptByAttempts W P) (c : RetryCall ω ε α)
    (s : RetryState ω ε) (hs : P s) : P (c.retryAsync W s).2 :=
  h.retryFrom _ c _ _ _ s hs

end FuturesBot
