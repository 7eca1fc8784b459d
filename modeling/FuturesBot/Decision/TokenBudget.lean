import FuturesBot.Decision.Envelope
import Mathlib.Algebra.BigOperators.Group.List.Basic

namespace FuturesBot

structure TokenBudgetConfig where
  maxTokensPerRequest : ℤ
  maxTokensPerHour : ℤ
  maxTokensPer24h : ℤ
  alertAtPercent : Amount
  alert_range : 0 < alertAtPercent ∧ alertAtPercent < 1

structure FailurePolicyConfig where
  gptFailureBlocksNewEntries : Bool
  tokenBudgetFailureBlocksNewEntries : Bool
  deterministicPositionManagementWithoutGpt : Bool
  exitsDoNotRequireGptResponse : Bool

inductive RequestPurpose
  | newEntry | positionManagement
  deriving DecidableEq, Repr

inductive BudgetStatus
  | normal | warning | exceeded
  deriving DecidableEq, Repr

structure BudgetCheckResult where
  ok : Bool
  status : BudgetStatus
  tokensUsedHour : ℤ
  tokensUsedDay : ℤ
  limitHour : ℤ
  limitDay : ℤ

/-- A row of `token_usage`. -/
structure TokenUsage where
  botRunId : String
  model : String
  timestamp : Timestamp
  promptTokens : ℤ
  completionTokens : ℤ
  totalTokens : ℤ

/-- The manager of a run over the rows that are stored. -/
structure TokenBudgetManager where
  botRunId : String
  config : TokenBudgetConfig
  failurePolicy : FailurePolicyConfig
  usages : List TokenUsage := []

namespace TokenBudgetManager

def microsecondsPerHour : Timestamp := 3600000000

def tokensInWindow (m : TokenBudgetManager) (since : Timestamp) : ℤ :=
  ((m.usages.filter fun u => u.botRunId = m.botRunId ∧ since ≤ u.timestamp).map
    (·.totalTokens)).sum

def totalTokensForRun (m : TokenBudgetManager) : ℤ :=
  ((m.usages.filter fun u => u.botRunId = m.botRunId).map (·.totalTokens)).sum

def statusForUsage (m : TokenBudgetManager) (usedHour usedDay : ℤ) : BudgetStatus :=
  if m.config.maxTokensPerHour ≤ usedHour ∨ m.config.maxTokensPer24h ≤ usedDay then .exceeded
  else if m.config.alertAtPercent * m.config.maxTokensPerHour ≤ usedHour ∨
      m.config.alertAtPercent * m.config.maxTokensPer24h ≤ usedDay then .warning
  else .normal

/-- Position management is not blocked, and nothing is read for it. -/
def checkBudget (m : TokenBudgetManager) (purpose : RequestPurpose) (now : Timestamp) :
    Except RequestError BudgetCheckResult :=
  let result (ok : Bool) (status : BudgetStatus) (usedHour usedDay : ℤ) : BudgetCheckResult :=
    { ok := ok, status := status, tokensUsedHour := usedHour, tokensUsedDay := usedDay,
      limitHour := m.config.maxTokensPerHour, limitDay := m.config.maxTokensPer24h }
  match purpose with
  | .positionManagement => .ok (result true .normal 0 0)
  | .newEntry =>
    let usedHour := m.tokensInWindow (now - microsecondsPerHour)
    let usedDay := m.tokensInWindow (now - 24 * microsecondsPerHour)
    match m.statusForUsage usedHour usedDay with
    | .exceeded =>
      if m.failurePolicy.tokenBudgetFailureBlocksNewEntries then .error .tokenBudgetExceeded
      else .ok (result false .exceeded usedHour usedDay)
    | status => .ok (result true status usedHour usedDay)

/-- Counts that are no integers cannot be stored. -/
def recordUsage (m : TokenBudgetManager) (promptTokens completionTokens : JsonValue)
    (model : String) (now : Timestamp) : Except UnexpectedError TokenBudgetManager :=
  match promptTokens.asInt, completionTokens.asInt with
  | some prompt, some completion =>
    .ok { m with usages := m.usages ++
      [{ botRunId := m.botRunId, model := model, timestamp := now, promptTokens := prompt,
         completionTokens := completion, totalTokens := prompt + completion }] }
  | _, _ => .error .typeError

theorem totalTokensForRun_record {m m' : TokenBudgetManager}
    (hp : promptTokens.asInt = some prompt) (hc : completionTokens.asInt = some completion)
    (h : m.recordUsage promptTokens completionTokens model now = .ok m') :
    m'.totalTokensForRun = m.totalTokensForRun + (prompt + completion) := by
  unfold recordUsage at h
  rw [hp, hc] at h
  cases h
  simp [totalTokensForRun]

end TokenBudgetManager

end FuturesBot
