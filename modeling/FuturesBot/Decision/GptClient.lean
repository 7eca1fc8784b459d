import FuturesBot.Core.RetryAsync
import FuturesBot.Decision.Schemas
import FuturesBot.Decision.TokenBudget

namespace FuturesBot

structure GptClientConfig where
  model : String := "gpt-4o"
  maxRetries : ℤ := 3
  baseDelaySeconds : Seconds := 1
  maxDelaySeconds : Seconds := 60
  jitterRatio : ℚ := 1 / 5
  circuitBreakerFailureThreshold : ℤ := 5
  circuitBreakerResetSeconds : Seconds := 30

structure GptRequest where
  systemPrompt : String
  userPrompt : String
  promptVersion : String := "unknown"

structure SchemaGuardResult where
  ok : Bool
  decision : Option ModelDecision
  errors : List String

structure ModelResponseAudit where
  modelRequestId : String
  model : String
  rawResponse : String
  normalizedResponse : Option ModelDecision
  promptTokens : JsonValue
  completionTokens : JsonValue
  totalTokens : JsonValue
  finishReason : JsonValue
  isValidSchema : Bool

/-- A session that requests and responses are stored in. The request gets an identifier. -/
structure AuditTrail (ω : Type) where
  auditModelRequest : GptRequest → ω → Except PyError String × ω
  auditModelResponse : ModelResponseAudit → ω → Except PyError Unit × ω

/-- The world with what the service has come back with since the request began. -/
structure Wire (ω : Type) where
  world : ω
  seen : List CallOutcome := []

/-- The clocks of the world read through the wire. -/
def Wire.clocks (W : RetryWorld ω) : RetryWorld (Wire ω) where
  monotonic w := ((W.monotonic w.world).1, { w with world := (W.monotonic w.world).2 })
  uniform low high w :=
    ((W.uniform low high w.world).1, { w with world := (W.uniform low high w.world).2 })
  elapse delay w := { w with world := W.elapse delay w.world }
  uniform_bounds h := W.uniform_bounds h

theorem Wire.clocks_seen (W : RetryWorld ω) (l : List CallOutcome) :
    KeptByClocks (Wire.clocks W) fun w => w.seen = l :=
  ⟨id, id, id⟩

/-- What the requests of a client share. -/
structure GptState (ω : Type) where
  retry : RetryState (Wire ω) RequestError
  budget : Option TokenBudgetManager

/-- A client and what lies outside of it: the clocks, the service, the decoder of JSON texts and
the validation of an object against the schema of decisions. -/
structure GptClient (ω : Type) where
  config : GptClientConfig := {}
  failurePolicy : FailurePolicyConfig
  clocks : RetryWorld ω
  now : ω → Timestamp
  post : GptRequest → ω → CallOutcome × ω
  loads : String → Except UnexpectedError JsonValue
  modelValidate : List (String × JsonValue) → Except (List String) ModelDecision

namespace GptClient

variable {ω : Type}

def newState (c : GptClient ω) (budget : Option TokenBudgetManager) (w : ω) : GptState ω where
  retry :=
    { breaker := some
        { config := ⟨c.config.circuitBreakerFailureThreshold,
            c.config.circuitBreakerResetSeconds⟩ }
      world := ⟨w, []⟩ }
  budget := budget

def validateGptResponse (c : GptClient ω) (raw : List (String × JsonValue)) : SchemaGuardResult :=
  match c.modelValidate raw with
  | .ok decision => { ok := true, decision := some decision, errors := [] }
  | .error errors => { ok := false, decision := none, errors := errors }

/-- The decoder takes texts only, and only its own error is caught. -/
def validateGptJsonString (c : GptClient ω) (rawJson : JsonValue) :
    Except UnexpectedError SchemaGuardResult :=
  match rawJson with
  | .str text =>
    match c.loads text with
    | .error .jsonDecodeError =>
      .ok { ok := false, decision := none, errors := ["json_parse_error: "] }
    | .error e => .error e
    | .ok (.object fields) => .ok (c.validateGptResponse fields)
    | .ok _ =>
      .ok { ok := false, decision := none, errors := ["Expected a JSON object, got "] }
  | _ => .error .typeError

def isRetryable : RequestError → Bool
  | .gptClient (.client _) | .gptClient (.rateLimit _) | .gptClient .timeout => true
  | .gptClient .auth | .gptClient .responseValidation => false
  | .tokenBudgetExceeded | .unexpected _ => false

def getRetryAfter : RequestError → Option Delay
  | .gptClient (.rateLimit retryAfter) => retryAfter
  | _ => none

def retryConfig (c : GptClient ω) : RetryConfig where
  maxAttempts := c.config.maxRetries + 1
  baseDelaySeconds := c.config.baseDelaySeconds
  maxDelaySeconds := c.config.maxDelaySeconds
  jitterRatio := c.config.jitterRatio

def callOnce (c : GptClient ω) (req : GptRequest) (w : Wire ω) :
    Except RequestError RawCallResult × Wire ω :=
  let (outcome, world) := c.post req w.world
  (outcome.result, { world := world, seen := w.seen ++ [outcome] })

def call (c : GptClient ω) (req : GptRequest) : RetryCall (Wire ω) RequestError RawCallResult where
  operation := c.callOnce req
  config := c.retryConfig
  isRetryable := isRetryable
  getRetryAfter := some getRetryAfter

/-- An open circuit counts as an error of the client. The sleep of `asyncio` refuses nothing. -/
def ofRetryError : RetryError RequestError → RequestError
  | .raised e => e
  | .circuitOpen _ => .gptClient (.client "Circuit breaker abierto:  fallos consecutivos")
  | .assertion | .sleepRefused => .unexpected .assertionError
  | .overflow => .unexpected .overflowError

def callWithRetry (c : GptClient ω) (req : GptRequest) (s : GptState ω) :
    Except RequestError RawCallResult × GptState ω :=
  let (result, retry) := (c.call req).retryAsync (Wire.clocks c.clocks) s.retry
  (result.mapError ofRetryError, { s with retry := retry })

def applyFailurePolicy (c : GptClient ω) (e : GptClientError) (purpose : RequestPurpose) :
    Except RequestError (Option ModelDecision) :=
  match purpose with
  | .positionManagement =>
    if c.failurePolicy.exitsDoNotRequireGptResponse ∧
        c.failurePolicy.deterministicPositionManagementWithoutGpt then .ok none
    else .error (.gptClient e)
  | .newEntry =>
    if c.failurePolicy.gptFailureBlocksNewEntries then .error (.gptClient e) else .ok none

/-- Whether the budget lets the request through. Only new entries ask it. -/
def admits (purpose : RequestPurpose) (c : GptClient ω) (s : GptState ω) :
    Except RequestError Bool :=
  match s.budget, purpose with
  | some budget, .newEntry =>
    (budget.checkBudget .newEntry (c.now s.retry.world.world)).map (·.ok)
  | _, _ => .ok true

def onWorld (f : ω → ω) (s : GptState ω) : GptState ω :=
  { s with retry := { s.retry with
      world := { s.retry.world with world := f s.retry.world.world } } }

/-- A request that cannot be stored is not audited later either. -/
def persistAuditRequest (audit : Option (AuditTrail ω)) (req : GptRequest) (s : GptState ω) :
    Option (AuditTrail ω × String) × GptState ω :=
  match audit with
  | none => (none, s)
  | some trail =>
    let (stored, world) := trail.auditModelRequest req s.retry.world.world
    (stored.toOption.map fun id => (trail, id), onWorld (fun _ => world) s)

/-- A failure to store the counts is logged only. -/
def recordUsage (c : GptClient ω) (raw : RawCallResult) (s : GptState ω) : GptState ω :=
  match s.budget with
  | none => s
  | some budget =>
    if raw.promptTokens.isNull ∨ raw.completionTokens.isNull then s
    else
      match budget.recordUsage raw.promptTokens raw.completionTokens c.config.model
          (c.now s.retry.world.world) with
      | .ok budget => { s with budget := some budget }
      | .error _ => s

def persistAuditResponse (c : GptClient ω) (record : Option (AuditTrail ω × String))
    (raw : RawCallResult) (guard : SchemaGuardResult) (s : GptState ω) : GptState ω :=
  match record with
  | none => s
  | some (trail, id) =>
    let response : ModelResponseAudit :=
      { modelRequestId := id, model := c.config.model, rawResponse := raw.rawJson,
        normalizedResponse := if guard.ok then guard.decision else none,
        promptTokens := raw.promptTokens, completionTokens := raw.completionTokens,
        totalTokens := raw.totalTokens, finishReason := raw.finishReason,
        isValidSchema := guard.ok }
    onWorld (fun w => (trail.auditModelResponse response w).2) s

/-- What becomes of an answer that has come through. -/
def handleResponse (c : GptClient ω) (record : Option (AuditTrail ω × String))
    (raw : RawCallResult) (s : GptState ω) :
    Except RequestError (Option ModelDecision) × GptState ω :=
  let s := c.recordUsage raw s
  match c.validateGptJsonString raw.content with
  | .error e => (.error (.unexpected e), s)
  | .ok guard =>
    let s := c.persistAuditResponse record raw guard s
    if ¬guard.ok then (.error (.gptClient .responseValidation), s)
    else
      match guard.decision with
      | none => (.error (.gptClient .responseValidation), s)
      | some decision => (.ok (some decision), s)

/-- A request starts with nothing seen. -/
def beginning (s : GptState ω) : GptState ω :=
  { s with retry := { s.retry with world := { s.retry.world with seen := [] } } }

def request (c : GptClient ω) (req : GptRequest) (purpose : RequestPurpose)
    (audit : Option (AuditTrail ω)) (s : GptState ω) :
    Except RequestError (Option ModelDecision) × GptState ω :=
  let s := beginning s
  match c.admits purpose s with
  | .error e => (.error e, s)
  | .ok false => (.ok none, s)
  | .ok true =>
    let (record, s) := persistAuditRequest audit req s
    match c.callWithRetry req s with
    | (.error (.gptClient e), s) => (c.applyFailurePolicy e purpose, s)
    | (.error e, s) => (.error e, s)
    | (.ok raw, s) => c.handleResponse record raw s

end GptClient

end FuturesBot
