import FuturesBot.Core.JsonValues
import FuturesBot.Core.Retry

namespace FuturesBot

/-- An answer as the HTTP library hands it on: its header of when to try again, if it is a float,
and what the decoder makes of its body. -/
structure HttpResponse where
  statusCode : ℕ
  retryAfter : Option Delay := none
  text : String := ""
  json : Except UnexpectedError JsonValue

inductive CallOutcome
  | response (r : HttpResponse)
  | timeout
  | requestError

/-- The errors of the client by class. Messages keep the fixed text of the raise site. -/
inductive GptClientError
  | client (message : String)
  | rateLimit (retryAfterSeconds : Option Delay)
  | timeout
  | auth
  | responseValidation
  deriving DecidableEq, Repr

/-- All that `request` can raise. -/
inductive RequestError
  | gptClient (e : GptClientError)
  | tokenBudgetExceeded
  | unexpected (e : UnexpectedError)
  deriving DecidableEq, Repr

structure RawCallResult where
  content : JsonValue
  rawJson : String
  promptTokens : JsonValue
  completionTokens : JsonValue
  totalTokens : JsonValue
  finishReason : JsonValue

/-- Missing keys and items are errors of the service. -/
def contentOf (data : JsonValue) : Except RequestError (JsonValue × JsonValue) :=
  let found : Except UnexpectedError (JsonValue × JsonValue) := do
    let choices ← data.item "choices"
    let choice ← choices.first
    let message ← choice.item "message"
    let content ← message.item "content"
    pure (choice, content)
  match found with
  | .ok pair => .ok pair
  | .error .keyError | .error .indexError =>
    .error (.gptClient (.client "Respuesta OpenAI con estructura inesperada"))
  | .error e => .error (.unexpected e)

def asUnexpected (r : Except UnexpectedError α) : Except RequestError α := r.mapError .unexpected

/-- The part of `_extract_content` behind the status. -/
def extractEnvelope (r : HttpResponse) : Except RequestError RawCallResult := do
  let data ← asUnexpected r.json
  let (choice, content) ← contentOf data
  let finishReason ← asUnexpected (choice.get "finish_reason" .null)
  if finishReason.isLength then
    throw (.gptClient (.client "Respuesta truncada por max_tokens"))
  let usage ← asUnexpected (data.get "usage" (.object []))
  let promptTokens ← asUnexpected (usage.get "prompt_tokens" .null)
  let completionTokens ← asUnexpected (usage.get "completion_tokens" .null)
  let totalTokens ← asUnexpected (usage.get "total_tokens" .null)
  pure
    { content := content, rawJson := r.text, promptTokens := promptTokens,
      completionTokens := completionTokens, totalTokens := totalTokens,
      finishReason := finishReason }

def extractContent (r : HttpResponse) : Except RequestError RawCallResult :=
  if r.statusCode = 429 then .error (.gptClient (.rateLimit r.retryAfter))
  else if r.statusCode = 401 ∨ r.statusCode = 403 then .error (.gptClient .auth)
  else if 500 ≤ r.statusCode then .error (.gptClient (.client "OpenAI server error"))
  else if r.statusCode ≠ 200 then .error (.gptClient (.client "Status inesperado"))
  else extractEnvelope r

/-- `_call_once` -/
def CallOutcome.result : CallOutcome → Except RequestError RawCallResult
  | .response r => extractContent r
  | .timeout => .error (.gptClient .timeout)
  | .requestError => .error (.gptClient (.client "Error de red al llamar a OpenAI"))

end FuturesBot
