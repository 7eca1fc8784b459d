import FuturesBot.Decision.Requests

namespace FuturesBot

variable {ω : Type}

namespace CallOutcome

/-- The two counts of an answer with status 200, if it reports its usage. -/
def counts : CallOutcome → List JsonValue
  | response r =>
    if r.statusCode ≠ 200 then []
    else
      let reported : Except UnexpectedError (List JsonValue) := do
        let data ← r.json
        let usage ← data.get "usage" (.object [])
        let promptTokens ← usage.get "prompt_tokens" .null
        let completionTokens ← usage.get "completion_tokens" .null
        pure [promptTokens, completionTokens]
      reported.toOption.getD []
  | timeout | requestError => []

/-- The tokens that an answer says it has taken. -/
def usage (o : CallOutcome) : ℤ := (o.counts.map fun count => count.asInt.getD 0).sum

/-- A count that is reported is a natural number. -/
def CountsTokens (o : CallOutcome) : Prop := ∀ count ∈ o.counts, count.isCount

instance (o : CallOutcome) : Decidable o.CountsTokens :=
  inferInstanceAs (Decidable (∀ count ∈ o.counts, count.isCount))

/-- An answer that the client turns away, or that comes with one of the counts at most. -/
def Uncounted (o : CallOutcome) : Prop := ∀ raw, o.result = .ok raw →
  raw.promptTokens.isNull ∨ raw.completionTokens.isNull

instance (o : CallOutcome) : Decidable o.Uncounted :=
  match h : o.result with
  | .ok raw => decidable_of_iff (raw.promptTokens.isNull ∨ raw.completionTokens.isNull) (by
      simp [Uncounted, h])
  | .error _ => isTrue (by simp [Uncounted, h])

end CallOutcome

open CallOutcome

/-- What has come through has the counts that were reported. -/
theorem counts_of_result (h : CallOutcome.result o = .ok raw) :
    o.counts = [raw.promptTokens, raw.completionTokens] := by
  cases o with
  | timeout | requestError => cases h
  | response r =>
    simp only [result, extractContent] at h
    split at h
    · cases h
    split at h
    · cases h
    split at h
    · cases h
    split at h
    · cases h
    rename_i hstatus
    unfold extractEnvelope at h
    obtain ⟨data, hdata, h⟩ := except_bind_ok h
    obtain ⟨⟨choice, content⟩, -, h⟩ := except_bind_ok h
    obtain ⟨finishReason, -, h⟩ := except_bind_ok h
    dsimp only at h
    split at h
    · cases h
    obtain ⟨-, -, h⟩ := except_bind_ok h
    obtain ⟨usage, husage, h⟩ := except_bind_ok h
    obtain ⟨promptTokens, hprompt, h⟩ := except_bind_ok h
    obtain ⟨completionTokens, hcompletion, h⟩ := except_bind_ok h
    obtain ⟨totalTokens, -, h⟩ := except_bind_ok h
    cases h
    have hreported : (do
        let data ← r.json
        let usage ← data.get "usage" (.object [])
        let promptTokens ← usage.get "prompt_tokens" .null
        let completionTokens ← usage.get "completion_tokens" .null
        pure [promptTokens, completionTokens] : Except UnexpectedError (List JsonValue)) =
          .ok [promptTokens, completionTokens] := by
      rw [asUnexpected_ok hdata, ok_bind, asUnexpected_ok husage, ok_bind,
        asUnexpected_ok hprompt, ok_bind, asUnexpected_ok hcompletion, ok_bind]
      rfl
    rw [counts, if_neg hstatus]
    dsimp only
    rw [hreported]
    rfl

theorem usage_nonneg (h : CountsTokens o) : 0 ≤ o.usage := by
  refine List.sum_nonneg fun n hn => ?_
  obtain ⟨count, hm, rfl⟩ := List.mem_map.mp hn
  rcases count.isCount_iff.mp (h count hm) with rfl | ⟨n, rfl⟩
  · exact le_rfl
  · exact Int.natCast_nonneg n

/-- What is put down for the end of a call. -/
def tokensOf : Except (RetryError RequestError) RawCallResult → ℤ
  | .ok raw =>
    if raw.promptTokens.isNull ∨ raw.completionTokens.isNull then 0
    else raw.promptTokens.asInt.getD 0 + raw.completionTokens.asInt.getD 0
  | .error _ => 0

/-- What is put down is what was reported, but for the answers that do not count. -/
theorem tokensOf_ending {W : RetryWorld ω} {P : RetryState ω RequestError → Prop}
    {c : RetryCall ω RequestError RawCallResult} (h : c.Ending W P result attempt seen final)
    (hcounts : ∀ o ∈ seen, CountsTokens o) :
    tokensOf final ≤ (seen.map usage).sum ∧
    (tokensOf final = (seen.map usage).sum ↔ ∀ o ∈ seen, Uncounted o → o.usage = 0) := by
  induction h with
  | @returned _ o raw hresult =>
    have husage : o.usage =
        raw.promptTokens.asInt.getD 0 + raw.completionTokens.asInt.getD 0 := by
      simp [usage, counts_of_result hresult]
    have hnonneg := usage_nonneg (hcounts o (by simp))
    simp only [List.map_singleton, List.sum_singleton, List.forall_mem_singleton, tokensOf]
    split
    · rename_i hnull
      refine ⟨hnonneg, fun h _ => h.symm, fun h => (h ?_).symm⟩
      intro raw' hraw'
      cases hresult.symm.trans hraw'
      exact hnull
    · rename_i hnull
      refine ⟨husage.ge, fun _ huncounted => absurd (huncounted raw hresult) hnull, fun _ => ?_⟩
      exact husage.symm
  | @raised _ o e hresult | @overflow _ o e hresult =>
    have hnonneg := usage_nonneg (hcounts o (by simp))
    simp only [List.map_singleton, List.sum_singleton, List.forall_mem_singleton, tokensOf]
    refine ⟨hnonneg, fun h _ => h.symm, fun h => (h ?_).symm⟩
    intro raw hraw
    cases hresult.symm.trans hraw
  | refused => simp [tokensOf]
  | noAttempt => simp [tokensOf]
  | @retried _ o e later final hresult _ _ _ ih =>
    have hnonneg := usage_nonneg (hcounts o (by simp))
    obtain ⟨hle, hiff⟩ := ih fun o' ho' => hcounts o' (List.mem_cons_of_mem o ho')
    have hlost : Uncounted o := by
      intro raw hraw
      cases hresult.symm.trans hraw
    rw [List.map_cons, List.sum_cons, List.forall_mem_cons, ← hiff]
    constructor
    · omega
    · constructor
      · intro h
        exact ⟨fun _ => by omega, by omega⟩
      · rintro ⟨hzero, h⟩
        have hnone := hzero hlost
        omega

/-- All that is put down for the run. -/
def GptState.tokensRecorded (s : GptState ω) : ℤ := (s.budget.map (·.totalTokensForRun)).getD 0

namespace GptClient

/-- The counts of an answer are put down if they are there. -/
theorem tokensRecorded_recordUsage (c : GptClient ω) {s : GptState ω} (hb : s.budget = some budget)
    (hcounts : ∀ count ∈ [raw.promptTokens, raw.completionTokens], count.isCount) :
    (c.recordUsage raw s).tokensRecorded = s.tokensRecorded + tokensOf (.ok raw) := by
  unfold recordUsage tokensOf
  rw [hb]
  dsimp only
  split
  · exact (add_zero _).symm
  · rename_i hnull
    obtain ⟨hprompt, hcompletion⟩ := not_or.mp hnull
    obtain ⟨prompt, hprompt⟩ : ∃ n : ℕ, raw.promptTokens = .int n := by
      refine ((JsonValue.isCount_iff _).mp (hcounts _ (by simp))).resolve_left fun h => hprompt ?_
      rw [h]
      rfl
    obtain ⟨completion, hcompletion⟩ : ∃ n : ℕ, raw.completionTokens = .int n := by
      refine ((JsonValue.isCount_iff _).mp (hcounts _ (by simp))).resolve_left
        fun h => hcompletion ?_
      rw [h]
      rfl
    have hp : raw.promptTokens.asInt = some (prompt : ℤ) := by rw [hprompt, JsonValue.asInt]
    have hc : raw.completionTokens.asInt = some (completion : ℤ) := by
      rw [hcompletion, JsonValue.asInt]
    rcases hrecord : budget.recordUsage raw.promptTokens raw.completionTokens c.config.model
      (c.now s.retry.world.world) with e | budget'
    · rw [TokenBudgetManager.recordUsage, hp, hc] at hrecord
      cases hrecord
    · have hrecorded := TokenBudgetManager.totalTokensForRun_record hp hc hrecord
      rw [hp, hc]
      simpa [GptState.tokensRecorded, hb] using hrecorded

/-- A request puts down what the answers to it have reported just when those that are turned
away, or come with one of the counts at most, report nothing. -/
theorem tokens_recorded_iff (c : GptClient ω) (req : GptRequest) (purpose : RequestPurpose)
    (audit : Option (AuditTrail ω)) {s : GptState ω} (hb : s.budget = some budget)
    (hcounts : ∀ o ∈ (c.request req purpose audit s).2.seen, o.CountsTokens) :
    (c.request req purpose audit s).2.tokensRecorded - s.tokensRecorded =
        ((c.request req purpose audit s).2.seen.map usage).sum ↔
      ∀ o ∈ (c.request req purpose audit s).2.seen, o.Uncounted → o.usage = 0 := by
  have hserved := c.request_served req purpose audit (KeptByAttempts.trivial _) (s := s) ⟨⟩
  rcases hrun : c.request req purpose audit s with ⟨r, s'⟩
  rw [hrun] at hserved hcounts
  dsimp only at hserved hcounts ⊢
  have hidle : (beginning s).tokensRecorded - s.tokensRecorded = 0 ∧ (beginning s).seen = [] :=
    ⟨sub_self _, rfl⟩
  cases hserved with
  | exceeded => simp [hidle]
  | softBlock => simp [hidle]
  | unavailable _ hbudget hending =>
    rw [← (tokensOf_ending hending hcounts).2]
    simp [GptState.tokensRecorded, hbudget, tokensOf]
  | @answered raw record s₁ _ hbudget hending =>
    obtain ⟨-, hseen, hrecorded⟩ := c.handleResponse_kept record raw
      (KeptByAttempts.trivial (Wire.clocks c.clocks)) (s := s₁) ⟨⟩
    have htokens : (c.handleResponse record raw s₁).2.tokensRecorded =
        (c.recordUsage raw s₁).tokensRecorded := by
      rw [GptState.tokensRecorded, hrecorded, GptState.tokensRecorded]
    rw [hseen] at hcounts
    obtain ⟨o, hm, ho⟩ := ending_ok_mem hending
    have hraw := hcounts o hm
    rw [CountsTokens, counts_of_result ho] at hraw
    rw [hseen, ← (tokensOf_ending hending hcounts).2, htokens,
      c.tokensRecorded_recordUsage (hbudget.trans hb) hraw]
    have hsame : s₁.tokensRecorded = s.tokensRecorded := by
      rw [GptState.tokensRecorded, hbudget, GptState.tokensRecorded]
    rw [hsame, add_sub_cancel_left]

/-- A client of a service that gives its answers in turn. None of them is a decision. -/
def scriptedClient : GptClient (List CallOutcome) where
  failurePolicy := ⟨true, true, true, true⟩
  clocks := ⟨fun w => (0, w), fun low _ w => (low, w), fun _ w => w, fun h => ⟨le_rfl, h⟩⟩
  now _ := 0
  post _ w := (w.headD .timeout, w.tail)
  loads _ := .error .jsonDecodeError
  modelValidate _ := .error ["environment: Field required"]

/-- A completion with what it has taken. -/
def completion (content finishReason : String) (promptTokens completionTokens : ℕ) :
    CallOutcome :=
  .response
    { statusCode := 200
      json := .ok (.object
        [("choices", .array [.object [("message", .object [("content", .str content)]),
            ("finish_reason", .str finishReason)]]),
          ("usage", .object [("prompt_tokens", .int promptTokens),
            ("completion_tokens", .int completionTokens)])]) }

def sampleBudget : TokenBudgetManager where
  botRunId := "run"
  config := ⟨8000, 100000, 500000, 8 / 10, by decide +kernel⟩
  failurePolicy := ⟨true, true, true, true⟩

def sampleGptRequest : GptRequest where
  systemPrompt := "system"
  userPrompt := "user"

/-- A request for a new entry of a client that has put nothing down yet. -/
def scriptedRequest (script : List CallOutcome) :
    Except RequestError (Option ModelDecision) × GptState (List CallOutcome) :=
  scriptedClient.request sampleGptRequest .newEntry none
    (scriptedClient.newState (some sampleBudget) script)

/-- After a timeout the answer comes through. -/
def answeredScript : List CallOutcome := [.timeout, completion "\x7b" "stop" 900 40]

/-- Every attempt is cut short. -/
def truncatedScript : List CallOutcome := List.replicate 4 (completion "\x7b" "length" 900 2000)

theorem answered_recorded :
    (scriptedRequest answeredScript).2.tokensRecorded -
        (scriptedClient.newState (some sampleBudget) answeredScript).tokensRecorded =
      ((scriptedRequest answeredScript).2.seen.map usage).sum :=
  (scriptedClient.tokens_recorded_iff sampleGptRequest .newEntry none rfl
    (by decide +kernel)).mpr (by decide +kernel)

/-- What four answers have taken that were cut short is put down nowhere. -/
theorem truncated_not_recorded :
    ¬∀ (c : GptClient (List CallOutcome)) (req : GptRequest) (purpose : RequestPurpose)
      (audit : Option (AuditTrail (List CallOutcome))) (s : GptState (List CallOutcome))
      (budget : TokenBudgetManager), s.budget = some budget →
      (∀ o ∈ (c.request req purpose audit s).2.seen, o.CountsTokens) →
      (c.request req purpose audit s).2.tokensRecorded - s.tokensRecorded =
        ((c.request req purpose audit s).2.seen.map usage).sum := by
  intro h
  have hrun := h scriptedClient sampleGptRequest .newEntry none
    (scriptedClient.newState (some sampleBudget) truncatedScript) sampleBudget rfl
    (by decide +kernel)
  exact absurd hrun (by decide +kernel)

end GptClient

end FuturesBot
