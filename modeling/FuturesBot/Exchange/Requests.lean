import FuturesBot.Core.RetryOutcomes
import FuturesBot.Exchange.BingX

namespace FuturesBot
open Lib

variable {ω : Type}

namespace BingXAdapter

variable {A : BingXAdapter ω} {s s' : BingXState ω} {P : RetryState ω BingXError → Prop}

/-- A jitter of a fifth keeps the eight seconds below ten. -/
theorem delay_sleeps (A : BingXAdapter ω) (sent : BingXRequest) (attempt : ℕ) (e : BingXError)
    (s : RetryState ω BingXError) :
    ∀ delay ∈ ((A.requestCall sent).nextDelay A.toRetryWorld attempt e s).1, delay.Sleeps := by
  have hjitter : ¬bingxRetryConfig.jitterRatio ≤ 0 := by decide +kernel
  have hbase : min (bingxRetryConfig.baseDelaySeconds * 2 ^ attempt)
      bingxRetryConfig.maxDelaySeconds ≤ 8 := min_le_right _ _
  obtain ⟨hlow, hhigh⟩ := A.uniform_bounds (w := s.world)
    (by decide +kernel : -bingxRetryConfig.jitterRatio ≤ bingxRetryConfig.jitterRatio)
  have hfactor := (by decide +kernel : 0 ≤ 1 + -bingxRetryConfig.jitterRatio).trans
    (add_le_add_right hlow 1)
  intro delay hdelay
  simp only [RetryCall.nextDelay, requestCall, computeDelay, Option.bind_none, hjitter, if_false]
    at hdelay
  split_ifs at hdelay
  · cases hdelay
  cases hdelay
  refine ⟨le_max_left _ _, max_lt (by decide +kernel) ?_⟩
  calc _ ≤ 8 * (1 + bingxRetryConfig.jitterRatio) :=
        mul_le_mul hbase (add_le_add_right hhigh 1) hfactor (by decide +kernel)
    _ < longestSleep := by decide +kernel

/-- The result of a request is the last thing that the exchange has answered. -/
theorem signedRequest_ok (h : A.signedRequest sent s = (.ok data, s')) :
    ∃ w, (A.http sent w).1.read = .ok data ∧ (A.http sent w).2 = s'.retry.world := by
  have houtcome := RetryCall.retrySync_outcome (.trivial A.toRetryWorld) (A.requestCall sent)
    (s := s.retry) ⟨⟩
  unfold signedRequest at h
  rcases hcall : (A.requestCall sent).retrySync A.toRetryWorld s.retry with ⟨error | found, retry⟩
  · rw [hcall] at h
    cases h
  · rw [hcall] at h houtcome
    cases h
    cases houtcome with
    | returned hdone => exact ⟨_, congrArg Prod.fst hdone, congrArg Prod.snd hdone⟩

/-- An error of a request is an answer of the exchange or of the breaker. -/
theorem signedRequest_error (hP : KeptByAttempts A.toRetryWorld P) (hs : P s.retry)
    (h : A.signedRequest sent s = (.error e, s')) :
    (∃ w, (A.http sent w).1.read = .error e) ∨
      ∃ s₁ error, P s₁ ∧ (s₁.beforeCall A.toRetryWorld).1 = .error error ∧ e = error.toBingX := by
  have houtcome := RetryCall.retrySync_outcome hP (A.requestCall sent) hs
  unfold signedRequest at h
  rcases hcall : (A.requestCall sent).retrySync A.toRetryWorld s.retry with ⟨error | found, retry⟩
  · rw [hcall] at h houtcome
    cases h
    cases houtcome with
    | raised hfails => exact .inl ⟨_, hfails⟩
    | refused hs₁ hrefused => exact .inr ⟨_, _, hs₁, hrefused, rfl⟩
    | overflow hmore hlate =>
      have hfew : bingxRetryConfig.maxAttempts ≤ floatOverflow := by decide
      exact absurd (hmore.trans_le hfew) (by exact_mod_cast not_lt.mpr hlate)
    | sleepless hrefused =>
      obtain ⟨delay, hdelay, hrefused⟩ := hrefused
      exact absurd (A.delay_sleeps sent _ _ _ delay hdelay) hrefused
    | noAttempt hnone => cases hnone
  · rw [hcall] at h
    cases h

end BingXAdapter

end FuturesBot
