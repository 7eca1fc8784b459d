import FuturesBot.Core.Errors
import FuturesBot.Core.Instants
import FuturesBot.Core.JsonValues
import FuturesBot.Lib.Base64
import FuturesBot.Lib.Json

namespace FuturesBot
open Lib

/-- HMAC-SHA256, of which only the length of the digest is known here. -/
structure Hmac where
  digest : (key message : List UInt8) → List UInt8
  length_digest : ∀ key message, (digest key message).length = 32

def JsonValue.ofItem : Json.Item → JsonValue
  | .str s => .str s
  | .int n => .int n

/-- The interpreter's own way with the JSON that is not read here, and with the literals of
`float`s, of which some are no number. -/
structure JsonInterpreter where
  loads : List UInt8 → Except UnexpectedError JsonValue
  floatValue : String → Option ℚ

/-- Objects of strings and integers are read here, if the text is plain. Of members with the same
key the last one counts. -/
def JsonInterpreter.loadBytes (interpreter : JsonInterpreter) (bytes : List UInt8) :
    Except UnexpectedError JsonValue :=
  match Json.loadObject bytes with
  | some members => .ok (.object (members.reverse.map fun m => (m.1, .ofItem m.2)))
  | none => interpreter.loads bytes

structure TokenClaims where
  sub : String
  issuedAt : Instant
  expiresAt : Instant
  jti : String
  deriving DecidableEq

inductive TokenError
  | tokenInvalid (message : String)
  | tokenExpired (message : String)
  | raised (e : UnexpectedError)
  deriving DecidableEq

def Hmac.sign (hmac : Hmac) (payload : List Char) (secretKey : String) : List Char :=
  Base64.encode (hmac.digest (Json.utf8 secretKey.toList) (Json.utf8 payload))

/-- On the wire the times are whole seconds. -/
def TokenClaims.payload (claims : TokenClaims) : List (String × Json.Item) :=
  [("sub", .str claims.sub), ("iat", .int claims.issuedAt.wholeSeconds),
    ("exp", .int claims.expiresAt.wholeSeconds), ("jti", .str claims.jti)]

def TokenClaims.payloadText (claims : TokenClaims) : List Char :=
  Base64.encode (Json.utf8 (Json.writeObject claims.payload))

def issueToken (hmac : Hmac) (username secretKey : String) (ttlSeconds : ℤ) (jti : String)
    (now : Instant) : Except PyError (String × TokenClaims) :=
  match now.addSeconds ttlSeconds with
  | none => .error (.external "OverflowError")
  | some expiresAt =>
    let claims : TokenClaims := ⟨username, now, expiresAt, jti⟩
    let payload := claims.payloadText
    .ok (String.ofList (payload ++ '.' :: hmac.sign payload secretKey), claims)

section Verifying
variable (hmac : Hmac) (interpreter : JsonInterpreter)

/-- The part of a `float` below the second is rounded to microseconds. -/
def ofFloat (x : ℚ) : Option Instant :=
  let whole := roundDown x
  let part := roundHalfEven (nearestFloat ((x - whole) * microsecondsPerSecond))
  Instant.ofMicroseconds (whole * microsecondsPerSecond + part)

def fromTimestamp : JsonValue → Option Instant
  | .float literal => (interpreter.floatValue literal).bind ofFloat
  | value => value.asInt.bind fun n => Instant.ofMicroseconds (n * microsecondsPerSecond)

def claimsOfPayload (payload : JsonValue) : Except TokenError TokenClaims :=
  let claim := fun key => (payload.item key).toOption
  let time := fun key => (claim key).bind (fromTimestamp interpreter)
  match claim "sub", time "iat", time "exp", claim "jti" with
  | some (.str sub), some issuedAt, some expiresAt, some (.str jti) =>
    .ok ⟨sub, issuedAt, expiresAt, jti⟩
  | some _, some _, some _, some _ =>
    .error (.tokenInvalid "Claims de token con tipos inesperados")
  | _, _, _, _ => .error (.tokenInvalid "Claims de token incompletos o inválidos")

def readClaims (payload : List Char) : Except TokenError TokenClaims :=
  match Base64.decode payload with
  | none => .error (.tokenInvalid "Payload de token ilegible")
  | some bytes =>
    match interpreter.loadBytes bytes with
    | .error .jsonDecodeError | .error (.loadsError "UnicodeDecodeError") =>
      .error (.tokenInvalid "Payload de token ilegible")
    | .error e => .error (.raised e)
    | .ok (.object fields) => claimsOfPayload interpreter (.object fields)
    | .ok _ => .error (.tokenInvalid "Payload de token no es un objeto")

def verifyToken (token secretKey : String) (now : Instant) : Except TokenError TokenClaims :=
  let text := token.toList
  if ¬text.all (fun c => c.toNat < 128) then
    .error (.tokenInvalid "Token con caracteres no-ASCII")
  else
    let payload := text.takeWhile (· ≠ '.')
    let signature := (text.dropWhile (· ≠ '.')).tail
    if '.' ∉ text ∨ payload = [] ∨ signature = [] then
      .error (.tokenInvalid "Formato de token inválido")
    -- The signature comes before the claims, which are not to be trusted without it.
    else if hmac.sign payload secretKey ≠ signature then
      .error (.tokenInvalid "Firma de token inválida")
    else do
      let claims ← readClaims interpreter payload
      if claims.expiresAt ≤ now then .error (.tokenExpired "Token expirado") else .ok claims

end Verifying

end FuturesBot
