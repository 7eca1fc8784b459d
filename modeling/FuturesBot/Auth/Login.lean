import FuturesBot.Auth.Hashing
import FuturesBot.Auth.Throttle
import FuturesBot.Auth.Tokens

namespace FuturesBot
open Lib

/-- The credentials of the dashboard, as they are found in the environment. -/
structure AuthCredentials where
  enabled : Bool
  username : String
  passwordHash : String
  secretKey : String
  tokenTtlSeconds : ℤ

structure ConfigError where
  message : String
  deriving DecidableEq, Repr

def minSecretKeyLength : ℕ := 32

def AuthCredentials.required (credentials : AuthCredentials) : List (String × String) :=
  [("DASHBOARD_USERNAME", credentials.username),
    ("DASHBOARD_PASSWORD_HASH", credentials.passwordHash),
    ("DASHBOARD_SECRET_KEY", credentials.secretKey)]

/-- The process does not start with credentials that are not complete. -/
def validateCredentials (foreign : List Char → Option ℤ) (credentials : AuthCredentials) :
    Except ConfigError Unit :=
  let missing := (credentials.required.filter (·.2 = "")).map (·.1)
  if !credentials.enabled then .ok ()
  else if missing ≠ [] then
    .error ⟨"dashboard_auth.enabled=true requiere " ++ ", ".intercalate missing ++
      " en el entorno. Generar el hash y la secret key con `python scripts/hash_password.py`. " ++
      "Para deshabilitar la auth (solo desarrollo local), setear " ++
      "BOT__DASHBOARD_AUTH__ENABLED=false."⟩
  else if !validatePasswordHash foreign credentials.passwordHash then
    .error ⟨"DASHBOARD_PASSWORD_HASH tiene un formato inválido. Regenerarlo con " ++
      "`python scripts/hash_password.py`."⟩
  else if credentials.secretKey.length < minSecretKeyLength then
    .error ⟨"DASHBOARD_SECRET_KEY debe tener al menos 32 caracteres. " ++
      "Generarla con `python scripts/hash_password.py`."⟩
  else .ok ()

/-- An answer that is no success. What stops at no handler is a server error. -/
inductive ApiError
  | http (status : ℕ) (detail : String) (headers : List (String × String))
  | unhandled (e : PyError)
  | raised (e : UnexpectedError)
  deriving DecidableEq

/-- A 401 that tells the client how to authenticate. -/
def unauthorized (detail : String) : ApiError := .http 401 detail [("WWW-Authenticate", "Bearer")]

def bearerPrefix : List Char := "bearer ".toList

/-- `str.strip` -/
def strip (text : List Char) : List Char := (text.dropWhile isSpace).rdropWhile isSpace

/-- The scheme is found in either case. No character outside of ASCII has one of its letters as
its lower case. -/
def extractBearerToken (authorization : Option String) : Except ApiError String :=
  let header := (authorization.getD "").toList
  if header = [] then .error (unauthorized "Falta el header Authorization")
  else if (header.take bearerPrefix.length).map Char.toLower ≠ bearerPrefix then
    .error (unauthorized "El esquema de autenticación debe ser Bearer")
  else
    let token := strip (header.drop bearerPrefix.length)
    if token = [] then .error (unauthorized "Token vacío") else .ok (String.ofList token)

structure LoginPayload where
  username : String
  password : String
  username_length : 1 ≤ username.length ∧ username.length ≤ 128
  password_length : 1 ≤ password.length ∧ password.length ≤ 1024

structure LoginResponse where
  accessToken : String
  tokenType : String := "bearer"
  expiresAt : Instant
  deriving DecidableEq

structure SessionOut where
  username : String
  issuedAt : Instant
  expiresAt : Instant

/-- The process that serves the dashboard, with the credentials it could start with. -/
structure Dashboard where
  credentials : AuthCredentials
  throttle : LoginThrottle
  hmac : Hmac
  interpreter : JsonInterpreter
  scrypt : Scrypt
  foreign : List Char → Option ℤ
  dummyHash : Except PyError String
  complete : validateCredentials foreign credentials = .ok ()

/-- A login on its way: where it comes from, what the clock says when it is throttled and when
its token is issued, and the number of the token. -/
structure LoginSubmission where
  payload : LoginPayload
  ip : Option String
  now : Timestamp
  issuedAt : Instant
  jti : String

namespace Dashboard

variable (D : Dashboard)

/-- Without authentication everyone is let through under this name. -/
def anonymous : String := "anonymous"

def requireAuth (authorization : Option String) (now : Instant) (jti : String) :
    Except ApiError TokenClaims :=
  if !D.credentials.enabled then .ok ⟨anonymous, now, now, jti⟩
  else do
    let token ← extractBearerToken authorization
    match verifyToken D.hmac D.interpreter token D.credentials.secretKey now with
    | .ok claims => .ok claims
    | .error (.tokenExpired _) => .error (unauthorized "Token expirado")
    | .error (.tokenInvalid _) => .error (unauthorized "Token inválido")
    | .error (.raised e) => .error (.raised e)

def me (authorization : Option String) (now : Instant) (jti : String) :
    Except ApiError SessionOut := do
  let claims ← D.requireAuth authorization now jti
  pure ⟨claims.sub, claims.issuedAt, claims.expiresAt⟩

def usernameOk (payload : LoginPayload) : Bool :=
  Json.utf8 payload.username.toList = Json.utf8 D.credentials.username.toList

/-- Where the user does not exist there is still a hash to verify, so that the time it takes does
not tell. -/
def expectedHash (payload : LoginPayload) : Except PyError String :=
  if D.usernameOk payload then .ok D.credentials.passwordHash else D.dummyHash

def checkPassword (payload : LoginPayload) : Except PyError Bool := do
  let hash ← D.expectedHash payload
  let passwordOk ← verifyPassword D.foreign D.scrypt payload.password hash
  pure (D.usernameOk payload && passwordOk)

def invalidCredentials : ApiError := .http 401 "Usuario o contraseña incorrectos" []

def tooManyAttempts (retryAfterSeconds : ℤ) : ApiError :=
  .http 429 "Demasiados intentos fallidos. Probá de nuevo más tarde."
    [("Retry-After", toString retryAfterSeconds)]

def authDisabled : ApiError := .http 404 "La autenticación del dashboard está deshabilitada" []

/-- The failure is committed before the 401. -/
def refuse (tables : LoginTables) (submission : LoginSubmission) :
    Except ApiError LoginResponse × LoginTables :=
  match (D.throttle.recordFailure submission.payload.username submission.ip submission.now
      .commit).run tables with
  | .error e => (.error (.unhandled e), tables)
  | .ok failed => (.error invalidCredentials, failed)

/-- The failures are forgotten before the token is issued. -/
def grantToken (tables : LoginTables) (submission : LoginSubmission) :
    Except ApiError LoginResponse × LoginTables :=
  match (D.throttle.clear submission.payload.username submission.ip .commit).run tables with
  | .error e => (.error (.unhandled e), tables)
  | .ok cleared =>
    match issueToken D.hmac D.credentials.username D.credentials.secretKey
        D.credentials.tokenTtlSeconds submission.jti submission.issuedAt with
    | .error e => (.error (.unhandled e), cleared)
    | .ok (token, claims) =>
      (.ok { accessToken := token, expiresAt := claims.expiresAt }, cleared)

/-- What a login answers and leaves in the tables. -/
def login (tables : LoginTables) (submission : LoginSubmission) :
    Except ApiError LoginResponse × LoginTables :=
  let decision :=
    D.throttle.checkLockout tables submission.payload.username submission.ip submission.now
  if !D.credentials.enabled then (.error authDisabled, tables)
  else if decision.locked then (.error (tooManyAttempts decision.retryAfterSeconds), tables)
  else
    match D.checkPassword submission.payload with
    | .error e => (.error (.unhandled e), tables)
    | .ok false => D.refuse tables submission
    | .ok true => D.grantToken tables submission

end Dashboard

end FuturesBot
