import FuturesBot.Auth.Counting
import FuturesBot.Auth.Login
import FuturesBot.Auth.TokenRoundTrip
import FuturesBot.Lib.Runs

namespace FuturesBot
open Lib

/-- A request to the API. A login finds the tables as other requests have left them. What a
protected router does with a request is an action on the rest of the process. -/
inductive ApiCall (σ : Type u)
  | login (tables : LoginTables) (submission : LoginSubmission)
  | guarded (authorization : Option String) (now : Instant) (jti : String) (act : σ → σ)

inductive ApiReply
  | granted (response : LoginResponse)
  | served (claims : TokenClaims)
  | refused (e : ApiError)

/-- A request with its answer. -/
abbrev ApiEntry (σ : Type u) := ApiCall σ × ApiReply

namespace Dashboard

variable {σ : Type u} (D : Dashboard)

/-- The dependency of a protected router comes before its endpoint. -/
def handle (s : σ) : ApiCall σ → ApiReply × σ
  | .login tables submission =>
    match (D.login tables submission).1 with
    | .ok response => (.granted response, s)
    | .error e => (.refused e, s)
  | .guarded authorization now jti act =>
    match D.requireAuth authorization now jti with
    | .ok claims => (.served claims, act s)
    | .error e => (.refused e, s)

def Answers (s : σ) (e : ApiEntry σ) (t : σ) : Prop := D.handle s e.1 = (e.2, t)

def tokenOf (claims : TokenClaims) : String :=
  String.ofList
    (claims.payloadText ++ '.' :: D.hmac.sign claims.payloadText D.credentials.secretKey)

/-- The claims behind the token of a login. -/
def claimsOf (submission : LoginSubmission) (response : LoginResponse) : TokenClaims :=
  ⟨D.credentials.username, submission.issuedAt, response.expiresAt, submission.jti⟩

/-- The claims whose token has gone out with an answer. -/
def grant : ApiEntry σ → Option TokenClaims
  | (.login _ submission, .granted response) => some (D.claimsOf submission response)
  | _ => none

/-- The payload that comes in with its signature. -/
def presents : ApiEntry σ → List Char → Prop
  | (.guarded authorization _ _ _, _), payload => ∃ token,
    extractBearerToken authorization = .ok token ∧ '.' ∉ payload ∧
      token.toList = payload ++ '.' :: D.hmac.sign payload D.credentials.secretKey
  | (.login .., _), _ => False

/-- What has been signed or comes in with its signature. -/
def tried (trace : List (ApiEntry σ)) : Set (List UInt8 × List UInt8) :=
  {input | ∃ e ∈ trace, ∃ payload, input = signingInput D.credentials.secretKey payload ∧
    (D.presents e payload ∨ ∃ claims, D.grant e = some claims ∧ payload = claims.payloadText)}

/-- Nobody else has the key: a signature that comes in has gone out before, and no two of the
payloads share one. -/
structure KeySecret (trace : List (ApiEntry σ)) : Prop where
  seen : EachAfter (fun before e => ∀ payload, D.presents e payload →
    ∃ b ∈ before, ∃ claims, D.grant b = some claims ∧
      D.hmac.sign payload D.credentials.secretKey =
        D.hmac.sign claims.payloadText D.credentials.secretKey) trace
  unforgeable : D.hmac.Unforgeable (D.tried trace)

/-- Who has logged in: the user, with a password that the hash lets in, while not locked out. -/
def Entitled (tables : LoginTables) (submission : LoginSubmission) : Prop :=
  (submission.payload.username = D.credentials.username ∧
    verifyPassword D.foreign D.scrypt submission.payload.password D.credentials.passwordHash =
      .ok true) ∧
    (D.throttle.checkLockout tables submission.payload.username submission.ip
      submission.now).locked = false

/-- A session: the header carries the token of an earlier login, which has not expired. -/
def InSession (before : List (ApiEntry σ)) (authorization : Option String) (now : Instant)
    (claims : TokenClaims) : Prop :=
  ∃ tables submission response, (.login tables submission, .granted response) ∈ before ∧
    extractBearerToken authorization = .ok response.accessToken ∧
    (D.claimsOf submission response).onWire = some claims ∧ now < claims.expiresAt

/-- A login is granted to whoever is entitled to it, if the expiry of the token is a date. -/
def GrantedRightly (tables : LoginTables) (submission : LoginSubmission) (reply : ApiReply) :
    Prop :=
  (∃ response, reply = .granted response) ↔ D.Entitled tables submission ∧
    (submission.issuedAt.addSeconds D.credentials.tokenTtlSeconds).isSome

/-- How a request is answered after the ones before it. -/
def AnsweredRightly (before : List (ApiEntry σ)) : ApiEntry σ → Prop
  | (.login tables submission, reply) => D.GrantedRightly tables submission reply
  | (.guarded authorization now _ _, reply) =>
    (∀ claims, reply = .served claims ↔ D.InSession before authorization now claims) ∧
      ((∃ claims, reply = .served claims) ∨ ∃ detail, reply = .refused (unauthorized detail))

variable {D}

theorem bind_eq_ok_iff {x : Except ε α} {f : α → Except ε β} :
    x >>= f = .ok b ↔ ∃ a, x = .ok a ∧ f a = .ok b := by
  cases x with
  | error e => simp [bind, Except.bind]
  | ok a => simp [bind, Except.bind]

theorem usernameOk_iff : D.usernameOk payload = true ↔
    payload.username = D.credentials.username := by
  rw [usernameOk, decide_eq_true_eq]
  exact ⟨fun h => String.toList_injective (Json.utf8_injective h), fun h => by rw [h]⟩

theorem checkPassword_true_iff : D.checkPassword payload = .ok true ↔
    payload.username = D.credentials.username ∧
      verifyPassword D.foreign D.scrypt payload.password D.credentials.passwordHash =
        .ok true := by
  rw [← usernameOk_iff, checkPassword, bind_eq_ok_iff]
  constructor
  · rintro ⟨hash, hhash, hrest⟩
    obtain ⟨passwordOk, hverify, hboth⟩ := bind_eq_ok_iff.mp hrest
    obtain ⟨hname, rfl⟩ := Bool.and_eq_true_iff.mp (Except.ok.inj hboth)
    rw [expectedHash, if_pos hname] at hhash
    obtain rfl := Except.ok.inj hhash
    exact ⟨hname, hverify⟩
  · rintro ⟨hname, hverify⟩
    refine ⟨_, if_pos hname, bind_eq_ok_iff.mpr ⟨true, hverify, ?_⟩⟩
    rw [hname]
    rfl

/-- Forgetting the failures of a login cannot fail. -/
theorem clear_ok (th : LoginThrottle) (username : String) (ip : Option String)
    (tables : LoginTables) :
    ∃ cleared, (th.clear username ip .commit).run tables = .ok cleared := by
  unfold LoginThrottle.clear
  split
  · exact ⟨tables, rfl⟩
  · obtain ⟨cleared, hrun, -⟩ :=
      LoginThrottle.clearEach_run .commit (th.identities username ip) tables
    exact ⟨cleared, hrun⟩

theorem issueToken_ok_iff : issueToken D.hmac D.credentials.username D.credentials.secretKey
      D.credentials.tokenTtlSeconds jti issuedAt = .ok (token, claims) ↔
    issuedAt.addSeconds D.credentials.tokenTtlSeconds = some claims.expiresAt ∧
      claims = ⟨D.credentials.username, issuedAt, claims.expiresAt, jti⟩ ∧
      token = D.tokenOf claims := by
  constructor
  · intro h
    obtain ⟨-, hadd, htoken⟩ := issueToken_ok h
    refine ⟨hadd, ?_, htoken⟩
    rw [issueToken_of_addSeconds hadd] at h
    exact (Prod.mk.inj (Except.ok.inj h)).2.symm
  · rintro ⟨hadd, hclaims, rfl⟩
    rw [issueToken_of_addSeconds hadd, ← hclaims]
    rfl

theorem grantToken_ok_iff (tables : LoginTables) (submission : LoginSubmission)
    (response : LoginResponse) :
    (D.grantToken tables submission).1 = .ok response ↔
      submission.issuedAt.addSeconds D.credentials.tokenTtlSeconds = some response.expiresAt ∧
        response =
          { accessToken := D.tokenOf (D.claimsOf submission response)
            expiresAt := response.expiresAt } := by
  obtain ⟨cleared, hclear⟩ := clear_ok D.throttle submission.payload.username submission.ip tables
  unfold grantToken
  rw [hclear]
  dsimp only
  constructor
  · intro h
    split at h
    · cases h
    · rename_i token claims hissue
      obtain ⟨hadd, hclaims, htoken⟩ := issueToken_ok_iff.mp hissue
      obtain rfl := Except.ok.inj h
      refine ⟨hadd, ?_⟩
      rw [claimsOf, ← hclaims, htoken]
  · rintro ⟨hadd, hresponse⟩
    have hissue : issueToken D.hmac D.credentials.username D.credentials.secretKey
        D.credentials.tokenTtlSeconds submission.jti submission.issuedAt =
          .ok (D.tokenOf (D.claimsOf submission response), D.claimsOf submission response) :=
      issueToken_ok_iff.mpr ⟨hadd, rfl, rfl⟩
    rw [hissue]
    exact congrArg Except.ok hresponse.symm

theorem refuse_ne_ok (tables : LoginTables) (submission : LoginSubmission)
    (response : LoginResponse) : (D.refuse tables submission).1 ≠ .ok response := by
  unfold refuse
  cases (D.throttle.recordFailure submission.payload.username submission.ip submission.now
    .commit).run tables <;> simp

/-- What a successful login takes, and what it answers. -/
theorem login_ok_iff (henabled : D.credentials.enabled = true) (tables : LoginTables)
    (submission : LoginSubmission) (response : LoginResponse) :
    (D.login tables submission).1 = .ok response ↔ D.Entitled tables submission ∧
      submission.issuedAt.addSeconds D.credentials.tokenTtlSeconds = some response.expiresAt ∧
      response =
        { accessToken := D.tokenOf (D.claimsOf submission response)
          expiresAt := response.expiresAt } := by
  unfold login Entitled
  rw [← checkPassword_true_iff, ← grantToken_ok_iff tables, henabled]
  cases hlocked : (D.throttle.checkLockout tables submission.payload.username submission.ip
      submission.now).locked with
  | true => simp [hlocked]
  | false =>
    cases hcheck : D.checkPassword submission.payload with
    | error e => simp [hlocked]
    | ok passed =>
      cases passed with
      | false => simp [hlocked, refuse_ne_ok]
      | true => simp [hlocked]

/-- A token of this process is taken by what the wire has kept of its claims. -/
theorem verifyToken_tokenOf (claims : TokenClaims) (now : Instant) :
    verifyToken D.hmac D.interpreter (D.tokenOf claims) D.credentials.secretKey now =
      (do
        let kept ← claims.received
        if kept.expiresAt ≤ now then .error (.tokenExpired "Token expirado") else .ok kept) :=
  verifyToken_issued D.hmac D.interpreter D.credentials.secretKey now claims

/-- The token of a request that is let through, and the answers to all others. -/
theorem requireAuth_of_token (henabled : D.credentials.enabled = true)
    (htoken : extractBearerToken authorization = .ok token) (now : Instant) (jti : String) :
    D.requireAuth authorization now jti =
      match verifyToken D.hmac D.interpreter token D.credentials.secretKey now with
      | .ok claims => .ok claims
      | .error (.tokenExpired _) => .error (unauthorized "Token expirado")
      | .error (.tokenInvalid _) => .error (unauthorized "Token inválido")
      | .error (.raised e) => .error (.raised e) := by
  rw [requireAuth, henabled, htoken]
  rfl

theorem extractBearerToken_error (h : extractBearerToken authorization = .error e) :
    ∃ detail, e = unauthorized detail := by
  unfold extractBearerToken at h
  dsimp only at h
  split at h
  · exact ⟨_, (Except.error.inj h).symm⟩
  · split at h
    · exact ⟨_, (Except.error.inj h).symm⟩
    · split at h
      · exact ⟨_, (Except.error.inj h).symm⟩
      · cases h

theorem isSpace_of_mem_encode (h : c ∈ Base64.encode bytes) : isSpace c = false := by
  have hchars : ∀ n < 64, isSpace (Base64.sextetChar n) = false := by decide
  obtain ⟨n, hn, rfl⟩ := Base64.mem_encode h
  exact hchars n hn

theorem strip_eq_self {text : List Char} (h : ∀ c ∈ text, isSpace c = false) :
    strip text = text := by
  have hleft : text.dropWhile isSpace = text := by
    rw [List.dropWhile_eq_self_iff]
    intro hlength
    simp [h _ (List.getElem_mem hlength)]
  have hright : text.rdropWhile isSpace = text := by
    rw [List.rdropWhile_eq_self_iff]
    intro hne
    simp [h _ (List.getLast_mem hne)]
  rw [strip, hleft, hright]

theorem extractBearerToken_bearer {text : List Char} (hne : text ≠ [])
    (h : ∀ c ∈ text, isSpace c = false) :
    extractBearerToken (some ("Bearer " ++ String.ofList text)) = .ok (String.ofList text) := by
  have hheader : ("Bearer " ++ String.ofList text).toList = "Bearer ".toList ++ text := by
    simp
  have hscheme : (("Bearer ".toList ++ text).take bearerPrefix.length).map Char.toLower =
      bearerPrefix := rfl
  have hrest : ("Bearer ".toList ++ text).drop bearerPrefix.length = text := rfl
  rw [extractBearerToken, Option.getD_some, hheader, hscheme, hrest, strip_eq_self h]
  simp [hne]

/-- A client that sends its token after the scheme is understood. -/
theorem extractBearerToken_tokenOf (D : Dashboard) (claims : TokenClaims) :
    extractBearerToken (some ("Bearer " ++ D.tokenOf claims)) = .ok (D.tokenOf claims) := by
  refine extractBearerToken_bearer (by simp) fun c hc => ?_
  rcases List.mem_append.mp hc with hpayload | hc
  · exact isSpace_of_mem_encode hpayload
  · rcases List.mem_cons.mp hc with rfl | hsign
    · decide
    · exact isSpace_of_mem_encode hsign

/-- A token of this process lets in until it expires, as far as the wire can tell. -/
theorem requireAuth_tokenOf (henabled : D.credentials.enabled = true) {granted : TokenClaims}
    (htoken : extractBearerToken authorization = .ok (D.tokenOf granted)) (now : Instant)
    (jti : String) :
    (∀ claims, D.requireAuth authorization now jti = .ok claims ↔
      granted.onWire = some claims ∧ now < claims.expiresAt) ∧
    ((∃ claims, D.requireAuth authorization now jti = .ok claims) ∨
      ∃ detail, D.requireAuth authorization now jti = .error (unauthorized detail)) := by
  rw [requireAuth_of_token henabled htoken, verifyToken_tokenOf, TokenClaims.received]
  cases granted.onWire with
  | none => exact ⟨fun claims => by simp [bind, Except.bind], .inr ⟨_, rfl⟩⟩
  | some kept =>
    by_cases hlate : kept.expiresAt ≤ now
    · have hnot : ¬now < kept.expiresAt := Int.not_lt.mpr hlate
      refine ⟨fun claims => ?_, .inr ⟨"Token expirado", ?_⟩⟩
      · simp only [Option.elim, bind, Except.bind, if_pos hlate, reduceCtorEq, false_iff]
        rintro ⟨⟨⟩, hlt⟩
        exact hnot hlt
      · simp [bind, Except.bind, if_pos hlate]
    · have hlt : now < kept.expiresAt := Int.not_le.mp hlate
      refine ⟨fun claims => ?_, .inl ⟨kept, ?_⟩⟩
      · simp only [Option.elim, bind, Except.bind, if_neg hlate]
        constructor
        · intro h
          obtain rfl := Except.ok.inj h
          exact ⟨rfl, hlt⟩
        · rintro ⟨⟨⟩, -⟩
          rfl
      · simp [bind, Except.bind, if_neg hlate]

/-- A header without a signature of this process does not let in. -/
theorem requireAuth_unsigned (henabled : D.credentials.enabled = true)
    (hunsigned : ∀ token payload, extractBearerToken authorization = .ok token → '.' ∉ payload →
      token.toList ≠ payload ++ '.' :: D.hmac.sign payload D.credentials.secretKey)
    (now : Instant) (jti : String) :
    ∃ detail, D.requireAuth authorization now jti = .error (unauthorized detail) := by
  cases htoken : extractBearerToken authorization with
  | error e =>
    obtain ⟨detail, rfl⟩ := extractBearerToken_error htoken
    refine ⟨detail, ?_⟩
    rw [requireAuth, henabled, htoken]
    rfl
  | ok token =>
    rw [requireAuth_of_token henabled htoken]
    rcases verifyToken_signed_or_invalid D.hmac D.interpreter D.credentials.secretKey now token with
      ⟨payload, hsigned, hdot⟩ | ⟨message, hinvalid⟩
    · exact absurd hsigned (hunsigned token payload htoken hdot)
    · rw [hinvalid]
      exact ⟨_, rfl⟩

theorem accessToken_of_eq {response : LoginResponse} {expiresAt : Instant}
    (h : response = { accessToken := token, expiresAt := expiresAt }) :
    response.accessToken = token := by
  rw [h]

/-- What goes out with a login is the token of its claims. -/
theorem accessToken_of_answers (henabled : D.credentials.enabled = true)
    {submission : LoginSubmission} {s t : σ}
    (h : D.Answers s (.login tables submission, .granted response) t) :
    response.accessToken = D.tokenOf (D.claimsOf submission response) := by
  unfold Answers handle at h
  dsimp only at h
  split at h
  · rename_i answer hlogin
    obtain rfl := ApiReply.granted.inj (congrArg Prod.fst h)
    obtain ⟨-, -, hresponse⟩ := (login_ok_iff henabled _ _ _).mp hlogin
    exact accessToken_of_eq hresponse
  · cases h

theorem KeySecret.of_snoc {trace : List (ApiEntry σ)} (h : D.KeySecret (trace ++ [e])) :
    D.KeySecret trace where
  seen := h.seen.of_snoc.1
  unforgeable := by
    refine Set.InjOn.mono ?_ h.unforgeable
    rintro input ⟨b, hb, hrest⟩
    exact ⟨b, List.mem_append_left _ hb, hrest⟩

theorem reply_of_login {s t : σ} {submission : LoginSubmission}
    (h : D.Answers s (.login tables submission, reply) t) (response : LoginResponse) :
    reply = .granted response ↔ (D.login tables submission).1 = .ok response := by
  unfold Answers handle at h
  dsimp only at h
  split at h
  · rename_i answer hlogin
    rw [hlogin, ← (Prod.mk.inj h).1]
    simp
  · rename_i e hlogin
    rw [hlogin, ← (Prod.mk.inj h).1]
    simp

theorem reply_of_guarded {s t : σ} {act : σ → σ}
    (h : D.Answers s (.guarded authorization now jti act, reply) t) :
    (∀ claims, reply = .served claims ↔ D.requireAuth authorization now jti = .ok claims) ∧
      ∀ e, reply = .refused e ↔ D.requireAuth authorization now jti = .error e := by
  unfold Answers handle at h
  dsimp only at h
  split at h
  · rename_i claims hauth
    rw [hauth, ← (Prod.mk.inj h).1]
    simp
  · rename_i e hauth
    rw [hauth, ← (Prod.mk.inj h).1]
    simp

/-- A signature that comes in belongs to a token that has gone out. -/
theorem KeySecret.token_seen {before : List (ApiEntry σ)}
    (h : D.KeySecret (before ++ [e])) (hpresents : D.presents e payload) :
    ∃ b ∈ before, ∃ claims, D.grant b = some claims ∧ payload = claims.payloadText := by
  obtain ⟨b, hb, claims, hgrant, hsign⟩ := h.seen before e [] rfl payload hpresents
  have hin : signingInput D.credentials.secretKey payload ∈ D.tried (before ++ [e]) :=
    ⟨e, by simp, payload, rfl, .inl hpresents⟩
  have hout : signingInput D.credentials.secretKey claims.payloadText ∈ D.tried (before ++ [e]) :=
    ⟨b, List.mem_append_left _ hb, _, rfl, .inr ⟨claims, hgrant, rfl⟩⟩
  exact ⟨b, hb, claims, hgrant, congrArg Prod.snd (h.unforgeable.eq_of_sign hin hout hsign)⟩

theorem of_grant {b : ApiEntry σ} (h : D.grant b = some claims) :
    ∃ tables submission response, b = (.login tables submission, .granted response) ∧
      claims = D.claimsOf submission response := by
  unfold grant at h
  split at h
  · exact ⟨_, _, _, rfl, (Option.some.inj h).symm⟩
  · cases h

/-- A token that has been granted opens the session it was granted for. -/
theorem requireAuth_iff_inSession (henabled : D.credentials.enabled = true)
    {before : List (ApiEntry σ)}
    (hissued : ∀ tables submission response,
      ((.login tables submission, .granted response) : ApiEntry σ) ∈ before →
        response.accessToken = D.tokenOf (D.claimsOf submission response))
    (hmem : ((.login tables submission, .granted response) : ApiEntry σ) ∈ before)
    (htoken : extractBearerToken authorization = .ok response.accessToken) (now : Instant)
    (jti : String) (claims : TokenClaims) :
    D.requireAuth authorization now jti = .ok claims ↔
      D.InSession before authorization now claims := by
  have hsession : ∀ tables submission response,
      ((.login tables submission, .granted response) : ApiEntry σ) ∈ before →
      extractBearerToken authorization = .ok response.accessToken →
      (D.requireAuth authorization now jti = .ok claims ↔
        (D.claimsOf submission response).onWire = some claims ∧ now < claims.expiresAt) := by
    intro tables submission response hmem htoken
    rw [hissued _ _ _ hmem] at htoken
    exact (requireAuth_tokenOf henabled htoken now jti).1 claims
  constructor
  · intro h
    obtain ⟨hwire, hlt⟩ := (hsession _ _ _ hmem htoken).mp h
    exact ⟨tables, submission, response, hmem, htoken, hwire, hlt⟩
  · rintro ⟨_, _, _, hmem', htoken', hwire, hlt⟩
    exact (hsession _ _ _ hmem' htoken').mpr ⟨hwire, hlt⟩

/-- Whatever else is presented is refused: it carries no signature that has not gone out. -/
theorem requireAuth_not_granted (henabled : D.credentials.enabled = true)
    {before : List (ApiEntry σ)} {act : σ → σ} {reply : ApiReply}
    (hissued : ∀ tables submission response,
      ((.login tables submission, .granted response) : ApiEntry σ) ∈ before →
        response.accessToken = D.tokenOf (D.claimsOf submission response))
    (hsecret : D.KeySecret (before ++ [(.guarded authorization now jti act, reply)]))
    (hnone : ¬∃ tables submission response,
      ((.login tables submission, .granted response) : ApiEntry σ) ∈ before ∧
        extractBearerToken authorization = .ok response.accessToken) :
    ∃ detail, D.requireAuth authorization now jti = .error (unauthorized detail) := by
  refine requireAuth_unsigned henabled (fun token payload htoken hdot hsigned => hnone ?_) now jti
  obtain ⟨b, hb, claims, hgrant, rfl⟩ := hsecret.token_seen ⟨token, htoken, hdot, hsigned⟩
  obtain ⟨tables, submission, response, rfl, rfl⟩ := of_grant hgrant
  refine ⟨tables, submission, response, hb, ?_⟩
  rw [htoken, hissued _ _ _ hb, tokenOf, ← hsigned, String.ofList_toList]

/-- The answer to a login needs no secret. -/
theorem grantedRightly_of_answers (henabled : D.credentials.enabled = true) {s t : σ}
    (hs : D.Answers s (.login tables submission, reply) t) :
    D.GrantedRightly tables submission reply := by
  simp only [GrantedRightly, reply_of_login hs, login_ok_iff henabled]
  constructor
  · rintro ⟨response, hentitled, hadd, -⟩
    exact ⟨hentitled, Option.isSome_of_eq_some hadd⟩
  · rintro ⟨hentitled, hsome⟩
    obtain ⟨expiresAt, hadd⟩ := Option.isSome_iff_exists.mp hsome
    exact ⟨{ accessToken := D.tokenOf ⟨_, submission.issuedAt, expiresAt, submission.jti⟩
             expiresAt := expiresAt }, hentitled, hadd, rfl⟩

/-- The answer to the last request of a run. -/
theorem answeredRightly_last (henabled : D.credentials.enabled = true)
    {before : List (ApiEntry σ)} {s t : σ} (hs : D.Answers s e t)
    (hissued : ∀ tables submission response,
      ((.login tables submission, .granted response) : ApiEntry σ) ∈ before →
        response.accessToken = D.tokenOf (D.claimsOf submission response))
    (hsecret : D.KeySecret (before ++ [e])) : D.AnsweredRightly before e := by
  obtain ⟨call, reply⟩ := e
  cases call with
  | login tables submission => exact grantedRightly_of_answers henabled hs
  | guarded authorization now jti act =>
    obtain ⟨hserved, hrefused⟩ := reply_of_guarded hs
    simp only [AnsweredRightly, hserved, hrefused]
    by_cases hown : ∃ tables submission response,
        ((.login tables submission, .granted response) : ApiEntry σ) ∈ before ∧
          extractBearerToken authorization = .ok response.accessToken
    · obtain ⟨tables, submission, response, hmem, htoken⟩ := hown
      refine ⟨requireAuth_iff_inSession henabled hissued hmem htoken now jti, ?_⟩
      rw [hissued _ _ _ hmem] at htoken
      exact (requireAuth_tokenOf henabled htoken now jti).2
    · obtain ⟨detail, hauth⟩ := requireAuth_not_granted henabled hissued hsecret hown
      refine ⟨fun claims => ⟨fun h => ?_, ?_⟩, .inr ⟨detail, hauth⟩⟩
      · rw [hauth] at h
        cases h
      · rintro ⟨tables, submission, response, hmem, htoken, -⟩
        exact absurd ⟨tables, submission, response, hmem, htoken⟩ hown

theorem answers_of_run {trace : List (ApiEntry σ)} {s t : σ}
    (henabled : D.credentials.enabled = true) (hr : Run D.Answers s trace t)
    (hsecret : D.KeySecret trace) : EachAfter D.AnsweredRightly trace := by
  induction hr with
  | nil => exact .nil
  | @snoc t u before e hr hs ih =>
    refine (ih hsecret.of_snoc).snoc (answeredRightly_last henabled hs ?_ hsecret)
    intro tables submission response hmem
    refine hr.forall_label (P := fun e => ∀ tables submission response,
      e = (.login tables submission, .granted response) →
        response.accessToken = D.tokenOf (D.claimsOf submission response)) ?_ _ hmem _ _ _ rfl
    rintro s e t hs tables submission response rfl
    exact accessToken_of_answers henabled hs

/-- Nothing but a request that is let through changes the rest of the process. -/
theorem served_of_ne {s t : σ} (hs : D.Answers s e t) (h : t ≠ s) :
    ∃ authorization now jti act claims, e = (.guarded authorization now jti act, .served claims) := by
  obtain ⟨call, reply⟩ := e
  unfold Answers handle at hs
  cases call with
  | login tables submission =>
    dsimp only at hs
    split at hs <;> exact absurd (Prod.mk.inj hs).2.symm h
  | guarded authorization now jti act =>
    dsimp only at hs
    split at hs
    · rename_i claims _
      obtain rfl := (Prod.mk.inj hs).1
      exact ⟨authorization, now, jti, act, claims, rfl⟩
    · exact absurd (Prod.mk.inj hs).2.symm h

theorem eq_of_run {trace : List (ApiEntry σ)} {s t : σ} (hr : Run D.Answers s trace t)
    (h : ∀ authorization now jti act claims,
      (.guarded authorization now jti act, .served claims) ∉ trace) : t = s := by
  induction hr with
  | nil => rfl
  | @snoc t u before e _ hs ih =>
    have hbefore : t = s := ih fun authorization now jti act claims hmem =>
      h authorization now jti act claims (List.mem_append_left _ hmem)
    have hlast : u = t := by
      by_contra hne
      obtain ⟨authorization, now, jti, act, claims, rfl⟩ := served_of_ne hs hne
      exact h authorization now jti act claims (by simp)
    rw [hlast, hbefore]

section Steps
variable {s : σ} {act : σ → σ}

theorem answers_granted {submission : LoginSubmission}
    (h : (D.login tables submission).1 = .ok response) :
    D.Answers s (.login tables submission, .granted response) s := by
  simp only [Answers, handle, h]

theorem answers_served (h : D.requireAuth authorization now jti = .ok claims) :
    D.Answers s (.guarded authorization now jti act, .served claims) (act s) := by
  simp only [Answers, handle, h]

theorem answers_refused (h : D.requireAuth authorization now jti = .error e) :
    D.Answers s (.guarded authorization now jti act, .refused e) s := by
  simp only [Answers, handle, h]

end Steps

namespace Quarter

def credentials : AuthCredentials where
  enabled := true
  username := "agus"
  passwordHash := Cheap.encoded
  secretKey := Noon.secretKey
  tokenTtlSeconds := 900

theorem complete : validateCredentials (fun _ => none) credentials = .ok () := by
  obtain ⟨parsed, hparsed, -⟩ := parseHash_hashPassword (fun _ => none) Cheap.hashed
  have hvalid : validatePasswordHash (fun _ => none) credentials.passwordHash = true :=
    Option.isSome_of_eq_some hparsed
  have hmissing : (credentials.required.filter (·.2 = "")).map (·.1) = [] := rfl
  have hkey : ¬credentials.secretKey.length < minSecretKeyLength := by decide
  rw [validateCredentials, hmissing, hvalid, if_neg hkey]
  rfl

def dashboard : Dashboard where
  credentials := credentials
  throttle := sampleThrottle
  hmac := Noon.hmac
  interpreter := Noon.interpreter
  scrypt := Cheap.scrypt
  foreign := fun _ => none
  dummyHash := .ok Cheap.encoded
  complete := complete

theorem name_length : 1 ≤ "agus".length ∧ "agus".length ≤ 128 := by decide

theorem right_length : 1 ≤ "la-correcta".length ∧ "la-correcta".length ≤ 1024 := by decide

def submission : LoginSubmission where
  payload := ⟨"agus", "la-correcta", name_length, right_length⟩
  ip := none
  now := 1785844800000000
  issuedAt := Noon.start
  jti := Noon.jti

def response : LoginResponse := { accessToken := Noon.token, expiresAt := Noon.finish }

def header : Option String := some ("Bearer " ++ Noon.token)

theorem claimsOf_eq : dashboard.claimsOf submission response = Noon.claims := rfl

theorem tokenOf_eq : dashboard.tokenOf Noon.claims = Noon.token := Noon.token_eq

theorem extracted : extractBearerToken header = .ok Noon.token := by
  rw [header, ← tokenOf_eq]
  exact extractBearerToken_tokenOf dashboard Noon.claims

theorem verified (now : Instant) : verifyToken dashboard.hmac dashboard.interpreter Noon.token
    dashboard.credentials.secretKey now =
      if Noon.finish ≤ now then .error (.tokenExpired "Token expirado") else .ok Noon.claims :=
  Noon.verified now

theorem entitled : dashboard.Entitled .empty submission :=
  ⟨⟨rfl, verifyPassword_self Cheap.hashed⟩, rfl⟩

theorem logged_in : (dashboard.login .empty submission).1 = .ok response :=
  (login_ok_iff rfl .empty submission response).mpr ⟨entitled, rfl, by
    rw [claimsOf_eq, tokenOf_eq]
    rfl⟩

/-- A session from noon to a quarter past twelve. -/
def trace : List (ApiEntry ℕ) :=
  [(.guarded none Noon.start Noon.jti (· + 1),
      .refused (unauthorized "Falta el header Authorization")),
    (.login .empty submission, .granted response),
    (.guarded header Noon.late Noon.jti (· + 1), .served Noon.claims),
    (.guarded header Noon.finish Noon.jti (· + 1), .refused (unauthorized "Token expirado"))]

theorem run : Run dashboard.Answers 0 trace 1 := by
  have hearly : dashboard.requireAuth header Noon.late Noon.jti = .ok Noon.claims := by
    rw [requireAuth_of_token rfl extracted, verified,
      if_neg (by decide : ¬Noon.finish ≤ Noon.late)]
  have hlate : dashboard.requireAuth header Noon.finish Noon.jti =
      .error (unauthorized "Token expirado") := by
    rw [requireAuth_of_token rfl extracted, verified,
      if_pos (by decide : Noon.finish ≤ Noon.finish)]
  exact .cons (answers_refused rfl) (.cons (answers_granted logged_in)
    (.cons (answers_served hearly) (.cons (answers_refused hlate) (.nil 1))))

theorem payload_of_presents {e : ApiEntry ℕ} (he : e ∈ trace)
    (h : dashboard.presents e payload) : payload = Noon.payload := by
  have hheader : ∀ token, extractBearerToken header = .ok token → '.' ∉ payload →
      token.toList = payload ++ '.' :: dashboard.hmac.sign payload dashboard.credentials.secretKey →
      payload = Noon.payload := by
    intro token htoken hdot hsigned
    obtain rfl := Except.ok.inj (extracted.symm.trans htoken)
    rw [← Noon.token_eq, String.toList_ofList, eq_comm,
      List.append_cons_inj_of_notMem hdot (Hmac.dot_notMem_sign _ _ _)] at hsigned
    exact hsigned.1
  simp only [trace, List.mem_cons, List.not_mem_nil, or_false] at he
  rcases he with rfl | rfl | rfl | rfl
  · obtain ⟨token, htoken, -⟩ := h
    cases htoken
  · exact h.elim
  · obtain ⟨token, htoken, hdot, hsigned⟩ := h
    exact hheader token htoken hdot hsigned
  · obtain ⟨token, htoken, hdot, hsigned⟩ := h
    exact hheader token htoken hdot hsigned

theorem keySecret : dashboard.KeySecret trace where
  seen := by
    intro before e after htrace payload hpresents
    have he : e ∈ trace := by
      rw [htrace]
      simp
    have hpayload := payload_of_presents he hpresents
    rcases before with _ | ⟨first, _ | ⟨second, rest⟩⟩
    · obtain ⟨rfl, -⟩ := List.cons.inj htrace
      obtain ⟨token, htoken, -⟩ := hpresents
      cases htoken
    · obtain ⟨-, htrace⟩ := List.cons.inj htrace
      obtain ⟨rfl, -⟩ := List.cons.inj htrace
      exact hpresents.elim
    · obtain ⟨-, htrace⟩ := List.cons.inj htrace
      obtain ⟨rfl, -⟩ := List.cons.inj htrace
      refine ⟨_, List.mem_cons_of_mem _ List.mem_cons_self, Noon.claims, rfl, ?_⟩
      rw [hpayload]
      rfl
  unforgeable := by
    refine Set.InjOn.mono ?_ Noon.unforgeable
    rintro input ⟨e, he, payload, rfl, hpresents | ⟨claims, hgrant, rfl⟩⟩
    · rw [payload_of_presents he hpresents]
      exact .inl rfl
    · simp only [trace, List.mem_cons, List.not_mem_nil, or_false] at he
      rcases he with rfl | rfl | rfl | rfl
      · cases hgrant
      · obtain rfl := Option.some.inj hgrant
        exact .inl rfl
      · cases hgrant
      · cases hgrant

end Quarter

/-- A login is granted just to whoever is entitled to it. While the key is secret, a protected
request is let through just with the token of an earlier login that has not expired, every other
one is answered with a 401, and where nobody was entitled to log in nothing is changed. -/
theorem sessions_hold (D : Dashboard) (henabled : D.credentials.enabled = true) (s t : σ)
    (trace : List (ApiEntry σ)) (hr : Run D.Answers s trace t) :
    (∀ tables submission reply, (.login tables submission, reply) ∈ trace →
      D.GrantedRightly tables submission reply) ∧
    (D.KeySecret trace → EachAfter D.AnsweredRightly trace ∧
      ((∀ tables submission reply, (.login tables submission, reply) ∈ trace →
        ¬D.Entitled tables submission) → t = s)) := by
  refine ⟨fun tables submission reply hmem => ?_, fun hsecret => ?_⟩
  · refine hr.forall_label (P := fun e => ∀ tables submission reply,
      e = (.login tables submission, reply) → D.GrantedRightly tables submission reply)
      ?_ _ hmem _ _ _ rfl
    rintro s e t hs tables submission reply rfl
    exact grantedRightly_of_answers henabled hs
  have hanswers := answers_of_run henabled hr hsecret
  refine ⟨hanswers, fun hnobody => eq_of_run hr ?_⟩
  intro authorization now jti act claims hmem
  obtain ⟨before, after, rfl⟩ := List.append_of_mem hmem
  obtain ⟨tables, submission, response, hlogin, -⟩ :=
    ((hanswers before _ after rfl).1 claims).mp rfl
  obtain ⟨first, rest, rfl⟩ := List.append_of_mem hlogin
  have hgranted : D.AnsweredRightly first (.login tables submission, .granted response) :=
    hanswers first _ (rest ++ (.guarded authorization now jti act, .served claims) :: after)
      (by simp)
  exact hnobody tables submission (.granted response) (by simp) (hgranted.mp ⟨response, rfl⟩).1

theorem quarter_holds :
    (∀ tables submission reply, (.login tables submission, reply) ∈ Quarter.trace →
      Quarter.dashboard.GrantedRightly tables submission reply) ∧
    EachAfter Quarter.dashboard.AnsweredRightly Quarter.trace ∧
    ((∀ tables submission reply, (.login tables submission, reply) ∈ Quarter.trace →
      ¬Quarter.dashboard.Entitled tables submission) → 1 = 0) :=
  have h := sessions_hold Quarter.dashboard rfl 0 1 Quarter.trace Quarter.run
  ⟨h.1, h.2 Quarter.keySecret⟩

end Dashboard

end FuturesBot
