import FuturesBot.Decision.GptClient

namespace FuturesBot
open CallOutcome

variable {ω : Type}

theorem ok_bind (a : α) (f : α → Except ε β) : (Except.ok a >>= f) = f a := rfl

theorem except_bind_ok {x : Except ε α} {f : α → Except ε β} (h : (x >>= f) = .ok b) :
    ∃ a, x = .ok a ∧ f a = .ok b := by
  cases x with
  | error e => cases h
  | ok a => exact ⟨a, rfl, h⟩

theorem asUnexpected_ok (h : asUnexpected r = .ok a) : r = .ok a := by
  cases r with
  | error e => cases h
  | ok b =>
    cases h
    rfl

/-- A result that a call ends with has been seen. -/
theorem ending_ok_mem {W : RetryWorld ω} {P : RetryState ω RequestError → Prop}
    {c : RetryCall ω RequestError RawCallResult}
    (h : c.Ending W P result attempt seen (.ok raw)) :
    ∃ o ∈ seen, result o = .ok raw := by
  generalize hfinal : (Except.ok raw : Except (RetryError RequestError) RawCallResult) = final at h
  induction h with
  | returned hresult =>
    cases hfinal
    exact ⟨_, List.mem_singleton_self _, hresult⟩
  | raised => cases hfinal
  | refused => cases hfinal
  | noAttempt => cases hfinal
  | overflow => cases hfinal
  | retried _ _ _ _ ih =>
    obtain ⟨o, hm, ho⟩ := ih hfinal
    exact ⟨o, List.mem_cons_of_mem _ hm, ho⟩

namespace GptState

/-- What the service has come back with to the last request. -/
def seen (s : GptState ω) : List CallOutcome := s.retry.world.seen

end GptState

namespace GptClient

theorem call_traced (c : GptClient ω) (req : GptRequest) :
    (c.call req).Traced (Wire.clocks c.clocks) (·.seen) result where
  operation w := ⟨(c.post req w.world).1, rfl, rfl⟩
  clocks := Wire.clocks_seen c.clocks
  onRetry := by simp [call]

theorem callWithRetry_ending (c : GptClient ω) (req : GptRequest) {s : GptState ω}
    {P : RetryState (Wire ω) RequestError → Prop}
    (hP : KeptByAttempts (Wire.clocks c.clocks) P) (hs : P s.retry) (hseen : s.seen = []) :
    ∃ final, (c.call req).Ending (Wire.clocks c.clocks) P result 0 (c.callWithRetry req s).2.seen
        final ∧ (c.callWithRetry req s).1 = final.mapError ofRetryError ∧
      (c.callWithRetry req s).2.budget = s.budget := by
  obtain ⟨seen, hhistory, hending⟩ := RetryCall.retryAsync_ending hP (c.call_traced req) hs
  refine ⟨_, ?_, rfl, rfl⟩
  have hsame : (c.callWithRetry req s).2.seen = seen := by
    have hstart : s.retry.world.seen = [] := hseen
    rw [hstart] at hhistory
    exact hhistory
  rw [hsame]
  exact hending

/-- What a call that fails means for the one who asked. -/
def failureResult (c : GptClient ω) (purpose : RequestPurpose) :
    RequestError → Except RequestError (Option ModelDecision)
  | .gptClient e => c.applyFailurePolicy e purpose
  | .tokenBudgetExceeded => .error .tokenBudgetExceeded
  | .unexpected e => .error (.unexpected e)

/-- The ways a request can go, with what the service has been seen to do. -/
inductive Served (c : GptClient ω) (req : GptRequest) (purpose : RequestPurpose) (s : GptState ω)
    (P : RetryState (Wire ω) RequestError → Prop) :
    Except RequestError (Option ModelDecision) → GptState ω → Prop
  | exceeded {e : RequestError} (hadmits : c.admits purpose (beginning s) = .error e) :
      Served c req purpose s P (.error e) (beginning s)
  | softBlock (hadmits : c.admits purpose (beginning s) = .ok false) :
      Served c req purpose s P (.ok none) (beginning s)
  | unavailable {error : RetryError RequestError} {s' : GptState ω}
      (hadmits : c.admits purpose (beginning s) = .ok true) (hbudget : s'.budget = s.budget)
      (hending : (c.call req).Ending (Wire.clocks c.clocks) P result 0 s'.seen (.error error)) :
      Served c req purpose s P (c.failureResult purpose (ofRetryError error)) s'
  | answered {raw : RawCallResult} {record : Option (AuditTrail ω × String)} {s' : GptState ω}
      (hadmits : c.admits purpose (beginning s) = .ok true) (hbudget : s'.budget = s.budget)
      (hending : (c.call req).Ending (Wire.clocks c.clocks) P result 0 s'.seen (.ok raw)) :
      Served c req purpose s P (c.handleResponse record raw s').1 (c.handleResponse record raw s').2

theorem persistAuditRequest_kept (audit : Option (AuditTrail ω)) (req : GptRequest)
    {s : GptState ω} {P : RetryState (Wire ω) RequestError → Prop} {W : RetryWorld (Wire ω)}
    (hP : KeptByAttempts W P) (hs : P s.retry) :
    P (persistAuditRequest audit req s).2.retry ∧
    (persistAuditRequest audit req s).2.seen = s.seen ∧
    (persistAuditRequest audit req s).2.budget = s.budget := by
  unfold persistAuditRequest
  cases audit with
  | none => exact ⟨hs, rfl, rfl⟩
  | some trail => exact ⟨hP.world _ hs, rfl, rfl⟩

/-- Storing the answer puts nothing down, and nothing more is seen. -/
theorem handleResponse_kept (c : GptClient ω) (record : Option (AuditTrail ω × String))
    (raw : RawCallResult) {s : GptState ω} {P : RetryState (Wire ω) RequestError → Prop}
    {W : RetryWorld (Wire ω)} (hP : KeptByAttempts W P) (hs : P s.retry) :
    P (c.handleResponse record raw s).2.retry ∧
    (c.handleResponse record raw s).2.seen = s.seen ∧
    (c.handleResponse record raw s).2.budget = (c.recordUsage raw s).budget := by
  have husage : (c.recordUsage raw s).retry = s.retry := by
    unfold recordUsage
    split
    · rfl
    · split
      · rfl
      · split <;> rfl
  have hseen : (c.recordUsage raw s).seen = s.seen := by rw [GptState.seen, husage, GptState.seen]
  rw [← husage] at hs
  have haudit : ∀ guard s₁, P s₁.retry →
      P (c.persistAuditResponse record raw guard s₁).retry ∧
      (c.persistAuditResponse record raw guard s₁).seen = s₁.seen ∧
      (c.persistAuditResponse record raw guard s₁).budget = s₁.budget := by
    intro guard s₁ hs₁
    unfold persistAuditResponse
    split
    · exact ⟨hs₁, rfl, rfl⟩
    · exact ⟨hP.world _ hs₁, rfl, rfl⟩
  unfold handleResponse
  dsimp only
  split
  · exact ⟨hs, hseen, rfl⟩
  · rename_i guard _
    obtain ⟨hkept, hsame, hbudget⟩ := haudit guard (c.recordUsage raw s) hs
    split
    · exact ⟨hkept, hsame.trans hseen, hbudget⟩
    · split
      · exact ⟨hkept, hsame.trans hseen, hbudget⟩
      · exact ⟨hkept, hsame.trans hseen, hbudget⟩

theorem request_served (c : GptClient ω) (req : GptRequest) (purpose : RequestPurpose)
    (audit : Option (AuditTrail ω)) {s : GptState ω}
    {P : RetryState (Wire ω) RequestError → Prop}
    (hP : KeptByAttempts (Wire.clocks c.clocks) P) (hs : P s.retry) :
    c.Served req purpose s P (c.request req purpose audit s).1
      (c.request req purpose audit s).2 := by
  unfold request
  dsimp only
  rcases hadmits : c.admits purpose (beginning s) with e | _ | _
  · exact .exceeded hadmits
  · exact .softBlock hadmits
  · obtain ⟨hkept, hseen, hbudget⟩ := persistAuditRequest_kept audit req (s := beginning s) hP
      (hP.world _ hs)
    rcases hstored : persistAuditRequest audit req (beginning s) with ⟨record, s₁⟩
    rw [hstored] at hkept hseen hbudget
    obtain ⟨final, hending, hresult, hsame⟩ := c.callWithRetry_ending req hP hkept hseen
    rcases hcall : c.callWithRetry req s₁ with ⟨r, s₂⟩
    rw [hcall] at hending hresult hsame
    dsimp only at hending hresult hsame hbudget ⊢
    subst hresult
    cases final with
    | ok raw => exact .answered hadmits (hsame.trans hbudget) hending
    | error error =>
      have hserved := Served.unavailable hadmits (hsame.trans hbudget) hending
      rw [Except.mapError]
      rcases he : ofRetryError error with e | _ | e
      · rw [he] at hserved
        exact hserved
      · rw [he] at hserved
        exact hserved
      · rw [he] at hserved
        exact hserved

end GptClient

end FuturesBot
