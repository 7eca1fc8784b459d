import FuturesBot.Decision.Shapes
import FuturesBot.Decision.TokenAccounting

namespace FuturesBot
open CallOutcome

variable {ω : Type}

theorem except_bind_error {x : Except ε α} {f : α → Except ε β} (h : (x >>= f) = .error e) :
    x = .error e ∨ ∃ a, x = .ok a ∧ f a = .error e := by
  cases x with
  | error e' =>
    cases h
    exact .inl rfl
  | ok a => exact .inr ⟨a, rfl, h⟩

/-- An error that the client names, or one that it does not expect. -/
def RequestError.OfCall : RequestError → Prop
  | .gptClient _ | .unexpected _ => True
  | .tokenBudgetExceeded => False

theorem ofCall_asUnexpected (h : asUnexpected r = .error e) : e.OfCall := by
  cases r with
  | error u =>
    cases h
    exact ⟨⟩
  | ok a => cases h

theorem ofCall_contentOf (h : contentOf data = .error e) : e.OfCall := by
  unfold contentOf at h
  dsimp only at h
  split at h <;> cases h <;> exact ⟨⟩

/-- No call knows of the budget. -/
theorem result_ofCall (h : CallOutcome.result o = .error e) : e.OfCall := by
  cases o with
  | timeout | requestError =>
    cases h
    exact ⟨⟩
  | response r =>
    simp only [result, extractContent] at h
    split at h
    · cases h
      exact ⟨⟩
    split at h
    · cases h
      exact ⟨⟩
    split at h
    · cases h
      exact ⟨⟩
    split at h
    · cases h
      exact ⟨⟩
    unfold extractEnvelope at h
    rcases except_bind_error h with h | ⟨data, -, h⟩
    · exact ofCall_asUnexpected h
    rcases except_bind_error h with h | ⟨⟨choice, content⟩, -, h⟩
    · exact ofCall_contentOf h
    rcases except_bind_error h with h | ⟨finishReason, -, h⟩
    · exact ofCall_asUnexpected h
    dsimp only at h
    split at h
    · cases h
      exact ⟨⟩
    rcases except_bind_error h with h | ⟨usage, -, h⟩
    · exact ofCall_asUnexpected h
    rcases except_bind_error h with h | ⟨promptTokens, -, h⟩
    · exact ofCall_asUnexpected h
    rcases except_bind_error h with h | ⟨completionTokens, -, h⟩
    · exact ofCall_asUnexpected h
    rcases except_bind_error h with h | ⟨totalTokens, -, h⟩
    · exact ofCall_asUnexpected h
    · cases h

namespace GptClient

/-- What a request is meant to end in. Where positions are managed and may be managed without
the service, only an invalid decision is an error. -/
structure ClosedOutcome (c : GptClient ω) (purpose : RequestPurpose)
    (r : Except RequestError (Option ModelDecision)) : Prop where
  validated : ∀ d, r = .ok (some d) → ∃ fields, c.modelValidate fields = .ok d
  named : ∀ e, r = .error e → (∃ g, e = .gptClient g) ∨ e = .tokenBudgetExceeded
  managesPositions : purpose = .positionManagement →
    c.failurePolicy.exitsDoNotRequireGptResponse →
    c.failurePolicy.deterministicPositionManagementWithoutGpt →
    ∀ e, r = .error e → e = .gptClient .responseValidation

theorem closed_ok (c : GptClient ω) (purpose : RequestPurpose) {d : Option ModelDecision}
    (h : ∀ d' ∈ d, ∃ fields, c.modelValidate fields = .ok d') :
    c.ClosedOutcome purpose (.ok d) where
  validated d' hd := h d' (Except.ok.inj hd)
  named := by simp
  managesPositions := by simp

theorem closed_none (c : GptClient ω) (purpose : RequestPurpose) :
    c.ClosedOutcome purpose (.ok none) :=
  c.closed_ok purpose (by simp)

theorem closed_gptClient (c : GptClient ω) (purpose : RequestPurpose) (e : GptClientError)
    (h : purpose = .positionManagement → c.failurePolicy.exitsDoNotRequireGptResponse →
      c.failurePolicy.deterministicPositionManagementWithoutGpt → e = .responseValidation) :
    c.ClosedOutcome purpose (.error (.gptClient e)) where
  validated := by simp
  named e' he := .inl ⟨e, (Except.error.inj he).symm⟩
  managesPositions hpurpose hexits hmanages e' he := by
    rw [← Except.error.inj he, h hpurpose hexits hmanages]

theorem not_closed_unexpected (c : GptClient ω) (purpose : RequestPurpose) (e : UnexpectedError) :
    ¬c.ClosedOutcome purpose (.error (.unexpected e)) := by
  intro h
  rcases h.named _ rfl with ⟨g, hg⟩ | hb
  · cases hg
  · cases hb

/-- What the policy makes of an error of the service is closed. -/
theorem closed_applyFailurePolicy (c : GptClient ω) (purpose : RequestPurpose)
    (e : GptClientError) : c.ClosedOutcome purpose (c.applyFailurePolicy e purpose) := by
  unfold applyFailurePolicy
  cases purpose with
  | positionManagement =>
    dsimp only
    split
    · exact c.closed_none _
    · rename_i hflags
      exact c.closed_gptClient _ e fun _ hexits hmanages => absurd ⟨hexits, hmanages⟩ hflags
  | newEntry =>
    dsimp only
    split
    · refine c.closed_gptClient _ e fun hpurpose => ?_
      cases hpurpose
    · exact c.closed_none _

theorem isRetryable_named (h : isRetryable e) : ∃ g, e = .gptClient g := by
  cases e with
  | gptClient g => exact ⟨g, rfl⟩
  | tokenBudgetExceeded | unexpected _ => cases h

theorem not_escapes_of_named (c : GptClient ω) (h : CallOutcome.result o = .error (.gptClient g)) :
    ¬c.Escapes o := by
  rintro (⟨e, he⟩ | ⟨raw, e, hraw, -⟩)
  · cases h.symm.trans he
  · cases h.symm.trans hraw

/-- A failure to be retried for which there is another attempt left, but no time to wait: the
answer names none, and `2.0 ** attempt` is no float. -/
def TooLate (c : GptClient ω) (req : GptRequest) (o : CallOutcome) (attempt : ℕ) : Prop :=
  match o.result with
  | .ok _ => False
  | .error e => (c.call req).TooLate attempt e

instance (c : GptClient ω) (req : GptRequest) (o : CallOutcome) (attempt : ℕ) :
    Decidable (c.TooLate req o attempt) :=
  match h : o.result with
  | .ok _ => isFalse (by simp [TooLate, h])
  | .error e => decidable_of_iff ((c.call req).TooLate attempt e) (by simp [TooLate, h])

theorem tooLate_iff (c : GptClient ω) (req : GptRequest) (h : CallOutcome.result o = .error e) :
    c.TooLate req o attempt ↔ (c.call req).TooLate attempt e := by
  rw [TooLate, h]

/-- An answer comes too late just where it ends the call for it. -/
theorem ending_tooLate {c : GptClient ω} {W : RetryWorld (Wire ω)}
    {P : RetryState (Wire ω) RequestError → Prop}
    (h : (c.call req).Ending W P result attempt seen final) :
    (∃ x ∈ seen.zipIdx attempt, c.TooLate req x.1 x.2) ↔ final = .error .overflow := by
  induction h with
  | returned hresult => simp [TooLate, hresult]
  | raised hresult hends =>
    simp only [List.zipIdx_singleton, List.mem_singleton, exists_eq_left,
      c.tooLate_iff req hresult]
    exact iff_of_false (fun hlate => hlate.2.1 hends) (by simp)
  | refused _ hrefused =>
    refine iff_of_false (by simp) fun hoverflow => ?_
    cases hoverflow
    rcases RetryState.beforeCall_error hrefused with h | ⟨failures, h⟩ <;> cases h
  | noAttempt => simp
  | overflow hresult hlate =>
    simpa only [List.zipIdx_singleton, List.mem_singleton, exists_eq_left,
      c.tooLate_iff req hresult, iff_true] using hlate
  | retried hresult _ hintime _ ih =>
    rw [← ih, List.zipIdx_cons, List.exists_mem_cons_iff, c.tooLate_iff req hresult]
    exact or_iff_right hintime

/-- Of a call that comes through only its own text can still escape. -/
theorem ending_ok_escapes {c : GptClient ω} {W : RetryWorld (Wire ω)}
    {P : RetryState (Wire ω) RequestError → Prop}
    (h : (c.call req).Ending W P result attempt seen (.ok raw)) :
    (∀ o ∈ seen, ¬c.Escapes o) ↔ ∀ e, c.validateGptJsonString raw.content ≠ .error e := by
  generalize hfinal : (Except.ok raw : Except (RetryError RequestError) RawCallResult) = final at h
  induction h with
  | @returned _ o raw' hresult =>
    cases hfinal
    rw [List.forall_mem_singleton]
    constructor
    · intro hsafe e he
      exact hsafe (.inr ⟨raw, e, hresult, he⟩)
    · rintro hreads (⟨e, he⟩ | ⟨raw', e, hraw, he⟩)
      · cases hresult.symm.trans he
      · cases hresult.symm.trans hraw
        exact hreads e he
  | raised => cases hfinal
  | refused => cases hfinal
  | noAttempt => cases hfinal
  | overflow => cases hfinal
  | retried hresult hretry _ _ ih =>
    obtain ⟨g, rfl⟩ := isRetryable_named hretry
    rw [List.forall_mem_cons, ih hfinal]
    exact and_iff_right (c.not_escapes_of_named hresult)

/-- A call that fails otherwise does so with a named error, or at an answer that escapes. -/
theorem ending_error_escapes {c : GptClient ω} {W : RetryWorld (Wire ω)}
    (hattempts : 0 ≤ c.config.maxRetries) (hintime : error ≠ .overflow)
    (h : (c.call req).Ending W RetryState.WellFormed result attempt seen (.error error)) :
    ((∃ g, ofRetryError error = .gptClient g) ∧ ∀ o ∈ seen, ¬c.Escapes o) ∨
    ((∃ e, ofRetryError error = .unexpected e) ∧ ∃ o ∈ seen, c.Escapes o) := by
  generalize hfinal : (Except.error error : Except (RetryError RequestError) RawCallResult) = final
    at h
  induction h with
  | returned => cases hfinal
  | @raised _ o e hresult =>
    cases hfinal
    have hcall := result_ofCall hresult
    cases e with
    | gptClient g =>
      refine .inl ⟨⟨g, rfl⟩, ?_⟩
      rw [List.forall_mem_singleton]
      exact c.not_escapes_of_named hresult
    | unexpected e => exact .inr ⟨⟨e, rfl⟩, o, List.mem_singleton_self o, .inl ⟨e, hresult⟩⟩
    | tokenBudgetExceeded => exact hcall.elim
  | refused hs hrefused =>
    cases hfinal
    obtain ⟨failures, rfl⟩ := hs.circuitOpen hrefused
    exact .inl ⟨⟨_, rfl⟩, by simp⟩
  | noAttempt hnone =>
    have hsome : c.config.maxRetries + 1 ≤ 0 := hnone
    omega
  | overflow =>
    cases hfinal
    exact absurd rfl hintime
  | @retried _ o e later final hresult hretry _ _ ih =>
    obtain ⟨g, rfl⟩ := isRetryable_named hretry
    rcases ih hfinal with ⟨hnamed, hsafe⟩ | ⟨hunexpected, o', hm, ho'⟩
    · exact .inl ⟨hnamed, List.forall_mem_cons.mpr ⟨c.not_escapes_of_named hresult, hsafe⟩⟩
    · exact .inr ⟨hunexpected, o', List.mem_cons_of_mem o hm, ho'⟩

/-- A text that passes is the text of a decision. -/
theorem validateGptJsonString_decision {c : GptClient ω} {guard : SchemaGuardResult}
    (h : c.validateGptJsonString content = .ok guard) :
    ∀ d ∈ guard.decision, ∃ fields, c.modelValidate fields = .ok d := by
  unfold validateGptJsonString at h
  cases content with
  | str text =>
    dsimp only at h
    split at h
    · cases h
      simp
    · cases h
    · rename_i fields _
      cases h
      unfold validateGptResponse
      split
      · rename_i decision hdecision
        simpa using ⟨fields, hdecision⟩
      · simp
    · cases h
      simp
  | null | bool _ | int _ | float _ | array _ | object _ => cases h

theorem handleResponse_closed_iff (c : GptClient ω) (purpose : RequestPurpose)
    (record : Option (AuditTrail ω × String)) (raw : RawCallResult) (s : GptState ω) :
    c.ClosedOutcome purpose (c.handleResponse record raw s).1 ↔
      ∀ e, c.validateGptJsonString raw.content ≠ .error e := by
  have hinvalid : c.ClosedOutcome purpose (.error (.gptClient .responseValidation)) :=
    c.closed_gptClient purpose _ fun _ _ _ => rfl
  unfold handleResponse
  dsimp only
  rcases hguard : c.validateGptJsonString raw.content with e | guard
  · exact iff_of_false (c.not_closed_unexpected purpose e) fun h => h e rfl
  · refine iff_of_true ?_ (by simp)
    dsimp only
    split
    · exact hinvalid
    · split
      · exact hinvalid
      · rename_i decision hdecision
        refine c.closed_ok purpose fun d hd => validateGptJsonString_decision hguard d ?_
        rwa [hdecision]

theorem admits_error_closed (c : GptClient ω) (h : c.admits purpose s = .error e) :
    c.ClosedOutcome purpose (.error e) := by
  unfold admits at h
  split at h
  · rename_i budget _
    have hexceeded : e = .tokenBudgetExceeded := by
      rcases hcheck : budget.checkBudget .newEntry (c.now s.retry.world.world) with e' | r
      · rw [hcheck] at h
        cases h
        unfold TokenBudgetManager.checkBudget at hcheck
        dsimp only at hcheck
        split at hcheck
        · split at hcheck
          · cases hcheck
            rfl
          · cases hcheck
        · cases hcheck
      · rw [hcheck] at h
        cases h
    subst hexceeded
    refine ⟨by simp, fun e he => .inr (Except.error.inj he).symm, fun hpurpose => ?_⟩
    cases hpurpose
  · cases h

/-- The states of a client between requests. The world and the budget are also others' to change. -/
inductive Reached (c : GptClient ω) : GptState ω → Prop
  | start (budget : Option TokenBudgetManager) (w : ω) : Reached c (c.newState budget w)
  | requested (req : GptRequest) (purpose : RequestPurpose) (audit : Option (AuditTrail ω))
      (h : Reached c s) : Reached c (c.request req purpose audit s).2
  | elapsed (budget : Option TokenBudgetManager) (w : ω) (h : Reached c s) :
      Reached c { onWorld (fun _ => w) s with budget := budget }

theorem callWithRetry_kept (c : GptClient ω) (req : GptRequest) {s : GptState ω}
    {P : RetryState (Wire ω) RequestError → Prop} (hP : KeptByAttempts (Wire.clocks c.clocks) P)
    (hs : P s.retry) : P (c.callWithRetry req s).2.retry :=
  hP.retryAsync (c.call req) s.retry hs

theorem Reached.wellFormed {c : GptClient ω} {s : GptState ω} (h : c.Reached s) :
    s.retry.WellFormed := by
  have hkept := RetryState.wellFormed_kept (ε := RequestError) (Wire.clocks c.clocks)
  induction h with
  | start =>
    intro b hb hopen
    cases hb
    cases hopen
  | @requested s req purpose audit _ ih =>
    have hserved : (beginning s).retry.WellFormed := hkept.world _ ih
    have hstored := (persistAuditRequest_kept audit req hkept hserved).1
    rcases hcall : c.callWithRetry req (persistAuditRequest audit req (beginning s)).2 with ⟨r, s'⟩
    have hcalled := c.callWithRetry_kept req hkept hstored
    rw [hcall] at hcalled
    unfold request
    dsimp only
    split
    · exact hserved
    · exact hserved
    · rw [hcall]
      split
      · rename_i hcase
        cases hcase
        exact hcalled
      · rename_i hcase
        cases hcase
        exact hcalled
      · rename_i raw _ hcase
        cases hcase
        exact (c.handleResponse_kept _ raw hkept hcalled).1
  | elapsed _ w _ ih => exact hkept.world _ ih

/-- Without an attempt there is nothing to answer with. -/
theorem request_noAttempt {c : GptClient ω} (h : c.config.maxRetries < 0) (req : GptRequest)
    (audit : Option (AuditTrail ω)) {s : GptState ω} (hadmits : c.admits purpose s = .ok true) :
    (c.request req purpose audit s).1 = .error (.unexpected .assertionError) := by
  have hnone : (c.call req).config.maxAttempts ≤ 0 := by
    change c.config.maxRetries + 1 ≤ 0
    omega
  have hstart : c.admits purpose (beginning s) = .ok true := hadmits
  rw [request]
  dsimp only
  rw [hstart]
  dsimp only
  rw [callWithRetry, RetryCall.retryAsync_noAttempt hnone]
  rfl

/-- A request ends as it is meant to just when its call is tried at all and no answer to it is
malformed or comes too late. -/
theorem request_closed_iff (c : GptClient ω) (req : GptRequest) (purpose : RequestPurpose)
    (audit : Option (AuditTrail ω)) {s : GptState ω} (hs : c.Reached s) :
    c.ClosedOutcome purpose (c.request req purpose audit s).1 ↔
      (c.admits purpose s = .ok true → 0 ≤ c.config.maxRetries) ∧
      (∀ o ∈ (c.request req purpose audit s).2.seen, ¬c.Malformed o) ∧
      ∀ x ∈ (c.request req purpose audit s).2.seen.zipIdx, ¬c.TooLate req x.1 x.2 := by
  simp only [← escapes_iff_malformed]
  by_cases hattempts : c.admits purpose s = .ok true → 0 ≤ c.config.maxRetries
  swap
  · obtain ⟨hadmits, hnone⟩ := Classical.not_imp.mp hattempts
    rw [request_noAttempt (lt_of_not_ge hnone) req audit hadmits]
    exact iff_of_false (c.not_closed_unexpected purpose _) fun h => hattempts h.1
  rw [and_iff_right hattempts]
  have hserved := c.request_served req purpose audit
    (RetryState.wellFormed_kept (Wire.clocks c.clocks)) hs.wellFormed
  rcases hrun : c.request req purpose audit s with ⟨r, s'⟩
  rw [hrun] at hserved
  dsimp only at hserved ⊢
  have hidle : (∀ o ∈ (beginning s).seen, ¬c.Escapes o) ∧
      ∀ x ∈ (beginning s).seen.zipIdx, ¬c.TooLate req x.1 x.2 := by
    constructor
    · intro o ho
      cases ho
    · intro x hx
      cases hx
  cases hserved with
  | exceeded hadmits => exact iff_of_true (c.admits_error_closed hadmits) hidle
  | softBlock => exact iff_of_true (c.closed_none purpose) hidle
  | @unavailable error _ hadmits _ hending =>
    have hlate := ending_tooLate hending
    by_cases herror : error = .overflow
    · obtain ⟨x, hx, hx'⟩ := hlate.mpr (congrArg _ herror)
      rw [herror]
      exact iff_of_false (c.not_closed_unexpected purpose _) fun h => h.2 x hx hx'
    rcases ending_error_escapes (hattempts hadmits) herror hending with
      ⟨⟨g, hg⟩, hsafe⟩ | ⟨⟨e, he⟩, o, hm, ho⟩
    · rw [hg]
      refine iff_of_true (c.closed_applyFailurePolicy purpose g) ⟨hsafe, fun x hx hx' => ?_⟩
      exact herror (Except.error.inj (hlate.mp ⟨x, hx, hx'⟩))
    · rw [he]
      exact iff_of_false (c.not_closed_unexpected purpose e) fun h => h.1 o hm ho
  | @answered raw record s₁ _ _ hending =>
    have hseen := (c.handleResponse_kept record raw (KeptByAttempts.trivial (Wire.clocks c.clocks))
      (s := s₁) ⟨⟩).2.1
    have hlate := ending_tooLate hending
    rw [c.handleResponse_closed_iff, hseen, ending_ok_escapes hending]
    refine (and_iff_left fun x hx hx' => ?_).symm
    cases hlate.mp ⟨x, hx, hx'⟩

theorem answered_closed :
    scriptedClient.ClosedOutcome .newEntry (scriptedRequest answeredScript).1 :=
  (scriptedClient.request_closed_iff sampleGptRequest .newEntry none (.start _ _)).mpr
    (by decide +kernel)

/-- A success with a page for a body, as a proxy on the way may answer. -/
def undecodable : CallOutcome :=
  .response { statusCode := 200, text := "<html></html>", json := .error .jsonDecodeError }

/-- It is raised as it is even where positions are managed without the service. -/
theorem undecodable_not_closed :
    ¬∀ (c : GptClient (List CallOutcome)) (req : GptRequest) (purpose : RequestPurpose)
      (audit : Option (AuditTrail (List CallOutcome))) (s : GptState (List CallOutcome)),
      c.Reached s → c.ClosedOutcome purpose (c.request req purpose audit s).1 := by
  intro h
  have hclosed := h scriptedClient sampleGptRequest .positionManagement none _
    (.start none [undecodable])
  have hrun : (scriptedClient.request sampleGptRequest .positionManagement none
      (scriptedClient.newState none [undecodable])).1 = .error (.unexpected .jsonDecodeError) := rfl
  rw [hrun] at hclosed
  exact scriptedClient.not_closed_unexpected _ _ hclosed

end GptClient

end FuturesBot
