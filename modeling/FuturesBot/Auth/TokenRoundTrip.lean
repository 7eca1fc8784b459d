import FuturesBot.Auth.Tokens

namespace FuturesBot
open Lib

/-- What is signed under a key. -/
def signingInput (secretKey : String) (payload : List Char) : List UInt8 × List UInt8 :=
  (Json.utf8 secretKey.toList, Json.utf8 payload)

theorem signingInput_inj (h : signingInput secretKey payload = signingInput secretKey' payload') :
    (secretKey, payload) = (secretKey', payload') := by
  have hkey : secretKey = secretKey' :=
    String.toList_injective (Json.utf8_injective (congrArg Prod.fst h))
  have hpayload : payload = payload' := Json.utf8_injective (congrArg Prod.snd h)
  rw [hkey, hpayload]

namespace Hmac

/-- Among all that is ever tried, no digest is met for a second input. There are more inputs than
digests, so this cannot be said of all inputs. -/
def Unforgeable (hmac : Hmac) (tried : Set (List UInt8 × List UInt8)) : Prop :=
  tried.InjOn fun input => hmac.digest input.1 input.2

variable {hmac : Hmac}

theorem Unforgeable.eq_of_sign (h : hmac.Unforgeable tried)
    (hinput : signingInput secretKey payload ∈ tried)
    (hinput' : signingInput secretKey' payload' ∈ tried)
    (hsign : hmac.sign payload secretKey = hmac.sign payload' secretKey') :
    (secretKey, payload) = (secretKey', payload') :=
  signingInput_inj (h hinput hinput' (Base64.encode_injective hsign))

theorem plain_of_mem_sign (h : c ∈ hmac.sign payload secretKey) : c ≠ '.' ∧ c.toNat < 128 :=
  Base64.plain_of_mem_encode h

theorem dot_notMem_sign (hmac : Hmac) (payload : List Char) (secretKey : String) :
    '.' ∉ hmac.sign payload secretKey :=
  fun h => (plain_of_mem_sign h).1 rfl

theorem sign_ne_nil (hmac : Hmac) (payload : List Char) (secretKey : String) :
    hmac.sign payload secretKey ≠ [] := by
  refine Base64.encode_ne_nil fun hnil => ?_
  have hlength := hmac.length_digest (Json.utf8 secretKey.toList) (Json.utf8 payload)
  rw [hnil] at hlength
  cases hlength

end Hmac

namespace TokenClaims

/-- What the wire keeps of the claims, if it can be read back. -/
def onWire (claims : TokenClaims) : Option TokenClaims :=
  (Instant.ofMicroseconds (claims.issuedAt.wholeSeconds * microsecondsPerSecond)).bind
    fun issuedAt =>
      (Instant.ofMicroseconds (claims.expiresAt.wholeSeconds * microsecondsPerSecond)).map
        fun expiresAt => ⟨claims.sub, issuedAt, expiresAt, claims.jti⟩

/-- It keeps whole seconds, and nothing else. -/
theorem onWire_eq_some_iff (claims : TokenClaims) :
    claims.onWire = some claims ↔ claims.issuedAt.IsWhole ∧ claims.expiresAt.IsWhole := by
  constructor
  · intro h
    obtain ⟨issuedAt, hissued, h⟩ := Option.bind_eq_some_iff.mp h
    obtain ⟨expiresAt, hexpires, hclaims⟩ := Option.map_eq_some_iff.mp h
    have hissuedAt : issuedAt = claims.issuedAt := congrArg TokenClaims.issuedAt hclaims
    have hexpiresAt : expiresAt = claims.expiresAt := congrArg TokenClaims.expiresAt hclaims
    rw [hissuedAt] at hissued
    rw [hexpiresAt] at hexpires
    exact ⟨(Instant.ofMicroseconds_wholeSeconds_iff _).mp hissued,
      (Instant.ofMicroseconds_wholeSeconds_iff _).mp hexpires⟩
  · rintro ⟨hissued, hexpires⟩
    rw [onWire, (Instant.ofMicroseconds_wholeSeconds_iff _).mpr hissued,
      (Instant.ofMicroseconds_wholeSeconds_iff _).mpr hexpires]
    rfl

/-- What is read of the claims at the other end. -/
def received (claims : TokenClaims) : Except TokenError TokenClaims :=
  claims.onWire.elim (.error (.tokenInvalid "Claims de token incompletos o inválidos")) .ok

theorem readable_of_small {n : ℤ} (h : |n| < 1000000000000) : Json.Readable n := by
  have hdigits : (Nat.toDigits 10 n.natAbs).length ≤ 12 := by
    rw [Nat.length_toDigits_le_iff (by decide) (by decide)]
    rw [Int.abs_eq_natAbs] at h
    exact_mod_cast h
  exact hdigits.trans (by decide)

theorem payload_readable (claims : TokenClaims) : ∀ m ∈ claims.payload, m.2.Readable := by
  intro m hm
  simp only [payload, List.mem_cons, List.not_mem_nil, or_false] at hm
  rcases hm with rfl | rfl | rfl | rfl
  · trivial
  · exact readable_of_small (Instant.abs_wholeSeconds_lt _)
  · exact readable_of_small (Instant.abs_wholeSeconds_lt _)
  · trivial

/-- The text determines what was written. -/
theorem payload_of_payloadText {claims claims' : TokenClaims}
    (h : claims.payloadText = claims'.payloadText) : claims.payload = claims'.payload := by
  have hread : ∀ c : TokenClaims, Json.loadObject (Json.utf8 (Json.writeObject c.payload)) =
      some c.payload :=
    fun c => Json.loadObject_writeObject (List.cons_ne_nil _ _) c.payload_readable
  have hload := congrArg Json.loadObject (Base64.encode_injective h)
  rw [hread, hread] at hload
  exact Option.some.inj hload

theorem plain_of_mem_payloadText (h : c ∈ payloadText claims) : c ≠ '.' ∧ c.toNat < 128 :=
  Base64.plain_of_mem_encode h

theorem payloadText_ne_nil (claims : TokenClaims) : claims.payloadText ≠ [] := by
  refine Base64.encode_ne_nil ?_
  rw [Json.utf8_plain fun c hc => Json.plain_writeObject hc]
  exact List.cons_ne_nil _ _

end TokenClaims

section Tokens
variable (hmac : Hmac) (interpreter : JsonInterpreter) (secretKey : String) (now : Instant)

theorem claimsOfPayload_payload (claims : TokenClaims) :
    claimsOfPayload interpreter
        (.object (claims.payload.reverse.map fun m => (m.1, .ofItem m.2))) =
      claims.received := by
  let wire := JsonValue.object (claims.payload.reverse.map fun m => (m.1, .ofItem m.2))
  let time := fun key => ((wire.item key).toOption).bind (fromTimestamp interpreter)
  have hsub : (wire.item "sub").toOption = some (.str claims.sub) := rfl
  have hissued : time "iat" =
      Instant.ofMicroseconds (claims.issuedAt.wholeSeconds * microsecondsPerSecond) := rfl
  have hexpires : time "exp" =
      Instant.ofMicroseconds (claims.expiresAt.wholeSeconds * microsecondsPerSecond) := rfl
  have hjti : (wire.item "jti").toOption = some (.str claims.jti) := rfl
  unfold claimsOfPayload TokenClaims.received TokenClaims.onWire
  dsimp only [wire, time] at hsub hissued hexpires hjti ⊢
  rw [hsub, hissued, hexpires, hjti]
  cases Instant.ofMicroseconds (claims.issuedAt.wholeSeconds * microsecondsPerSecond) with
  | none => rfl
  | some issuedAt =>
    cases Instant.ofMicroseconds (claims.expiresAt.wholeSeconds * microsecondsPerSecond) with
    | none => rfl
    | some expiresAt => rfl

/-- The payload that was written is read as what the wire keeps. -/
theorem readClaims_payloadText (claims : TokenClaims) :
    readClaims interpreter claims.payloadText = claims.received := by
  have hload : Json.loadObject (Json.utf8 (Json.writeObject claims.payload)) =
      some claims.payload :=
    Json.loadObject_writeObject (List.cons_ne_nil _ _) claims.payload_readable
  have hdecode : Base64.decode claims.payloadText =
      some (Json.utf8 (Json.writeObject claims.payload)) :=
    Base64.decode_encode _
  rw [readClaims, hdecode]
  dsimp only
  rw [JsonInterpreter.loadBytes, hload]
  exact claimsOfPayload_payload interpreter claims

/-- The text up to the first dot, and what is behind it. -/
theorem eq_partition (h : '.' ∈ text) :
    text = text.takeWhile (· ≠ '.') ++ '.' :: (text.dropWhile (· ≠ '.')).tail := by
  induction text with
  | nil => cases h
  | cons c text ih =>
    by_cases hc : c = '.'
    · subst hc
      rfl
    · have hpos : decide (c ≠ '.') = true := decide_eq_true hc
      rw [List.takeWhile_cons_of_pos (p := (· ≠ '.')) hpos,
        List.dropWhile_cons_of_pos (p := (· ≠ '.')) hpos, List.cons_append]
      exact congrArg (c :: ·) (ih ((List.mem_cons.mp h).resolve_left fun heq => hc heq.symm))

theorem dot_notMem_takeWhile (text : List Char) : '.' ∉ text.takeWhile (· ≠ '.') := by
  intro h
  have hne := List.mem_takeWhile_imp h
  exact absurd rfl (of_decide_eq_true hne)

/-- A text gets past the signature only as a payload that was signed under this key. -/
theorem verifyToken_signed_or_invalid (token : String) :
    (∃ payload, token.toList = payload ++ '.' :: hmac.sign payload secretKey ∧ '.' ∉ payload) ∨
      ∃ message, verifyToken hmac interpreter token secretKey now =
        .error (.tokenInvalid message) := by
  unfold verifyToken
  dsimp only
  split
  · exact .inr ⟨_, rfl⟩
  · split
    · exact .inr ⟨_, rfl⟩
    · rename_i hformat
      split
      · exact .inr ⟨_, rfl⟩
      · rename_i hsign
        have hdot : '.' ∈ token.toList := of_not_not fun h => hformat (.inl h)
        refine .inl ⟨token.toList.takeWhile (· ≠ '.'), ?_, dot_notMem_takeWhile _⟩
        rw [of_not_not hsign]
        exact eq_partition hdot

/-- A payload with its signature is taken by its claims. -/
theorem verifyToken_signed (hplain : ∀ c ∈ payload, c ≠ '.' ∧ c.toNat < 128)
    (hne : payload ≠ []) :
    verifyToken hmac interpreter
        (String.ofList (payload ++ '.' :: hmac.sign payload secretKey)) secretKey now =
      (do
        let claims ← readClaims interpreter payload
        if claims.expiresAt ≤ now then .error (.tokenExpired "Token expirado")
        else .ok claims) := by
  have hkeep : ∀ c ∈ payload, decide (c ≠ '.') = true := fun c hc => decide_eq_true (hplain c hc).1
  have hstop : ¬decide ('.' ≠ '.') = true := by decide
  have htake : (payload ++ '.' :: hmac.sign payload secretKey).takeWhile (· ≠ '.') = payload := by
    rw [List.takeWhile_append_of_pos hkeep,
      List.takeWhile_cons_of_neg (p := (· ≠ '.')) hstop, List.append_nil]
  have hdrop : (payload ++ '.' :: hmac.sign payload secretKey).dropWhile (· ≠ '.') =
      '.' :: hmac.sign payload secretKey := by
    rw [List.dropWhile_append_of_pos hkeep,
      List.dropWhile_cons_of_neg (p := (· ≠ '.')) hstop]
  have hascii : (payload ++ '.' :: hmac.sign payload secretKey).all
      (fun c => c.toNat < 128) = true := by
    rw [List.all_eq_true]
    intro c hc
    refine decide_eq_true ?_
    rcases List.mem_append.mp hc with hc | hc
    · exact (hplain c hc).2
    · rcases List.mem_cons.mp hc with rfl | hc
      · decide
      · exact (Hmac.plain_of_mem_sign hc).2
  have hformat : ¬('.' ∉ payload ++ '.' :: hmac.sign payload secretKey ∨ payload = [] ∨
      hmac.sign payload secretKey = []) := by
    rintro (hdot | hnil | hnil)
    · exact hdot (List.mem_append_right _ List.mem_cons_self)
    · exact hne hnil
    · exact hmac.sign_ne_nil payload secretKey hnil
  unfold verifyToken
  dsimp only
  rw [String.toList_ofList, htake, hdrop, hascii, if_neg (not_not.mpr rfl), List.tail_cons,
    if_neg hformat, if_neg (not_not.mpr rfl)]

/-- The issued token is taken by what is received of its claims. -/
theorem verifyToken_issued (claims : TokenClaims) :
    verifyToken hmac interpreter
        (String.ofList (claims.payloadText ++ '.' :: hmac.sign claims.payloadText secretKey))
        secretKey now =
      (do
        let kept ← claims.received
        if kept.expiresAt ≤ now then .error (.tokenExpired "Token expirado") else .ok kept) := by
  rw [verifyToken_signed hmac interpreter secretKey now
    (fun c hc => TokenClaims.plain_of_mem_payloadText hc) claims.payloadText_ne_nil,
    readClaims_payloadText]

/-- A signature is worth nothing for any other input. -/
theorem verifyToken_foreign (h : hmac.Unforgeable tried)
    (hinput : signingInput secretKey payload ∈ tried)
    (hinput' : signingInput secretKey' payload' ∈ tried)
    (hne : (secretKey', payload') ≠ (secretKey, payload)) :
    ∃ message, verifyToken hmac interpreter
        (String.ofList (payload' ++ '.' :: hmac.sign payload secretKey)) secretKey' now =
      .error (.tokenInvalid message) := by
  refine (verifyToken_signed_or_invalid hmac interpreter secretKey' now _).resolve_left ?_
  rintro ⟨signed, htext, hdot⟩
  rw [String.toList_ofList, eq_comm,
    List.append_cons_inj_of_notMem hdot (hmac.dot_notMem_sign signed secretKey')] at htext
  obtain ⟨rfl, -, hsign⟩ := htext
  exact hne (h.eq_of_sign hinput' hinput hsign)

/-- What a token promises when nothing else is ever tried: it stands for its claims until they
expire and has expired from then on, and its signature is worth nothing behind another payload or
under another key. -/
structure RoundTrips (tried : Set (List UInt8 × List UInt8)) (token : String)
    (claims : TokenClaims) : Prop where
  valid : ∀ now < claims.expiresAt,
    verifyToken hmac interpreter token secretKey now = .ok claims
  expired : ∀ now, claims.expiresAt ≤ now →
    verifyToken hmac interpreter token secretKey now = .error (.tokenExpired "Token expirado")
  rejected : ∀ secretKey' payload', signingInput secretKey' payload' ∈ tried →
    (secretKey', payload') ≠ (secretKey, claims.payloadText) → ∀ now, ∃ message,
      verifyToken hmac interpreter
          (String.ofList (payload' ++ '.' :: hmac.sign claims.payloadText secretKey))
          secretKey' now =
        .error (.tokenInvalid message)

end Tokens

theorem issueToken_ok (h : issueToken hmac username secretKey ttlSeconds jti now =
    .ok (token, claims)) :
    claims.issuedAt = now ∧ now.addSeconds ttlSeconds = some claims.expiresAt ∧
      token = String.ofList
        (claims.payloadText ++ '.' :: hmac.sign claims.payloadText secretKey) := by
  unfold issueToken at h
  split at h
  · cases h
  · rename_i expiresAt hexpires
    simp only [Except.ok.injEq, Prod.mk.injEq] at h
    obtain ⟨rfl, rfl⟩ := h
    exact ⟨rfl, hexpires, rfl⟩

theorem issueToken_of_addSeconds (h : now.addSeconds ttlSeconds = some expiresAt) :
    issueToken hmac username secretKey ttlSeconds jti now =
      .ok (String.ofList ((TokenClaims.mk username now expiresAt jti).payloadText ++
        '.' :: hmac.sign (TokenClaims.mk username now expiresAt jti).payloadText secretKey),
        ⟨username, now, expiresAt, jti⟩) := by
  rw [issueToken, h]

section Promise
variable {hmac : Hmac} {interpreter : JsonInterpreter} {token : String} {claims : TokenClaims}

/-- Before it expires the token shows what the wire has kept. -/
theorem RoundTrips.isWhole (htoken : token = String.ofList
      (claims.payloadText ++ '.' :: hmac.sign claims.payloadText secretKey))
    (h : RoundTrips hmac interpreter secretKey tried token claims)
    (hexpires : claims.expiresAt.IsWhole ↔ claims.issuedAt.IsWhole) :
    claims.issuedAt.IsWhole := by
  by_cases hfirst : claims.expiresAt = Instant.first
  · rw [← hexpires, hfirst]
    decide
  · have hvalid := h.valid Instant.first (Instant.first_lt hfirst)
    rw [htoken, verifyToken_issued] at hvalid
    cases hkept : claims.onWire with
    | none =>
      rw [TokenClaims.received, hkept] at hvalid
      cases hvalid
    | some kept =>
      rw [TokenClaims.received, hkept] at hvalid
      dsimp only [Option.elim, bind, Except.bind] at hvalid
      split at hvalid
      · cases hvalid
      · cases hvalid
        exact ((TokenClaims.onWire_eq_some_iff _).mp hkept).1

theorem roundTrips_of_isWhole (hunforgeable : hmac.Unforgeable tried)
    (htried : signingInput secretKey claims.payloadText ∈ tried)
    (htoken : token = String.ofList
      (claims.payloadText ++ '.' :: hmac.sign claims.payloadText secretKey))
    (hissued : claims.issuedAt.IsWhole) (hexpires : claims.expiresAt.IsWhole) :
    RoundTrips hmac interpreter secretKey tried token claims := by
  have hwire := claims.onWire_eq_some_iff.mpr ⟨hissued, hexpires⟩
  refine ⟨fun now hnow => ?_, fun now hnow => ?_, fun secretKey' payload' hinput hne now => ?_⟩
  · rw [htoken, verifyToken_issued, TokenClaims.received, hwire]
    exact if_neg (Int.not_le.mpr hnow)
  · rw [htoken, verifyToken_issued, TokenClaims.received, hwire]
    exact if_pos hnow
  · exact verifyToken_foreign hmac interpreter secretKey now hunforgeable htried hinput hne

end Promise

/-- The token keeps its promise just if it was issued at a whole second. -/
theorem roundTrips_iff_isWhole (hmac : Hmac) (interpreter : JsonInterpreter)
    (tried : Set (List UInt8 × List UInt8)) (username secretKey jti token : String)
    (ttlSeconds : ℤ) (now : Instant) (claims : TokenClaims)
    (hunforgeable : hmac.Unforgeable tried)
    (htried : signingInput secretKey claims.payloadText ∈ tried)
    (hissue : issueToken hmac username secretKey ttlSeconds jti now = .ok (token, claims)) :
    RoundTrips hmac interpreter secretKey tried token claims ↔ now.IsWhole := by
  obtain ⟨rfl, hadd, htoken⟩ := issueToken_ok hissue
  have hexpires := Instant.isWhole_addSeconds hadd
  constructor
  · intro h
    exact h.isWhole htoken hexpires
  · intro h
    exact roundTrips_of_isWhole hunforgeable htried htoken h (hexpires.mpr h)

namespace Noon

def secretKey : String := "secret-key-de-test-con-mas-de-32-caracteres"

def otherKey : String := "otra-secret-key-de-test-con-mas-de-32-chars"

def jti : String := "2f1c8a90-6d4b-4c7e-9b3a-5e8d7c6f1a20"

/-- 12:00:00 -/
def start : Instant := ⟨1785844800000000, by decide⟩

/-- 12:00:00.5 -/
def late : Instant := ⟨1785844800500000, by decide⟩

/-- 12:15:00 -/
def finish : Instant := ⟨1785845700000000, by decide⟩

/-- 12:15:00.25 -/
def early : Instant := ⟨1785845700250000, by decide⟩

/-- 12:15:00.5 -/
def promised : Instant := ⟨1785845700500000, by decide⟩

def claims : TokenClaims := ⟨"agus", start, finish, jti⟩

def lateClaims : TokenClaims := ⟨"agus", late, promised, jti⟩

def payload : List Char := claims.payloadText

/-- The payload of another user. -/
def forged : List Char := { claims with sub := "root" }.payloadText

def digest : List UInt8 :=
  [27, 184, 142, 191, 121, 48, 129, 248, 32, 162, 161, 24, 32, 23, 95, 170,
    170, 242, 245, 226, 50, 182, 0, 119, 152, 159, 90, 119, 98, 50, 155, 230]

def otherDigest : List UInt8 :=
  [17, 176, 97, 242, 47, 231, 125, 51, 219, 5, 154, 46, 60, 166, 71, 239,
    189, 164, 36, 45, 73, 173, 87, 157, 150, 89, 228, 167, 41, 31, 242, 137]

def forgedDigest : List UInt8 :=
  [98, 113, 119, 83, 9, 169, 87, 58, 53, 173, 12, 93, 24, 195, 169, 178,
    161, 210, 84, 166, 167, 38, 136, 206, 45, 143, 43, 224, 96, 53, 66, 191]

/-- The digests of what is tried. -/
def hmac : Hmac where
  digest := fun key message =>
    if (key, message) = signingInput secretKey payload then digest
    else if (key, message) = signingInput otherKey payload then otherDigest
    else if (key, message) = signingInput secretKey forged then forgedDigest
    else List.replicate 32 0
  length_digest := fun key message => by
    split
    · rfl
    · split
      · rfl
      · split <;> rfl

def interpreter : JsonInterpreter := ⟨fun _ => .error .jsonDecodeError, fun _ => none⟩

/-- The token, the same token under another key, and one with another user. -/
def tried : Set (List UInt8 × List UInt8) :=
  {signingInput secretKey payload, signingInput otherKey payload,
    signingInput secretKey forged}

theorem payload_ne_forged : payload ≠ forged := by
  intro h
  have hsub := congrArg List.head? (TokenClaims.payload_of_payloadText h)
  exact absurd hsub (by decide)

theorem digest_eq (input : List UInt8 × List UInt8) : hmac.digest input.1 input.2 =
    if input = signingInput secretKey payload then digest
    else if input = signingInput otherKey payload then otherDigest
    else if input = signingInput secretKey forged then forgedDigest
    else List.replicate 32 0 :=
  rfl

theorem unforgeable : hmac.Unforgeable tried := by
  have hkeys : secretKey ≠ otherKey := by decide
  have hother : signingInput otherKey payload ≠ signingInput secretKey payload := fun h =>
    hkeys (congrArg Prod.fst (signingInput_inj h)).symm
  have hforged : signingInput secretKey forged ≠ signingInput secretKey payload := fun h =>
    payload_ne_forged (congrArg Prod.snd (signingInput_inj h)).symm
  have hboth : signingInput secretKey forged ≠ signingInput otherKey payload := fun h =>
    hkeys (congrArg Prod.fst (signingInput_inj h))
  have hdigest : hmac.digest (signingInput secretKey payload).1
      (signingInput secretKey payload).2 = digest := by
    rw [digest_eq, if_pos rfl]
  have hotherDigest : hmac.digest (signingInput otherKey payload).1
      (signingInput otherKey payload).2 = otherDigest := by
    rw [digest_eq, if_neg hother, if_pos rfl]
  have hforgedDigest : hmac.digest (signingInput secretKey forged).1
      (signingInput secretKey forged).2 = forgedDigest := by
    rw [digest_eq, if_neg hforged, if_neg hboth, if_pos rfl]
  rintro input (rfl | rfl | rfl) input' (rfl | rfl | rfl) h
  all_goals
    simp only [hdigest, hotherDigest, hforgedDigest] at h
    first | exact absurd h (by decide) | rfl

def token : String :=
  "eyJzdWIiOiJhZ3VzIiwiaWF0IjoxNzg1ODQ0ODAwLCJleHAiOjE3ODU4NDU3MDAsImp0aSI6IjJmMWM4" ++
    "YTkwLTZkNGItNGM3ZS05YjNhLTVlOGQ3YzZmMWEyMCJ9" ++
    ".G7iOv3kwgfggoqEYIBdfqqry9eIytgB3mJ9ad2Iym-Y"

theorem token_eq : String.ofList (payload ++ '.' :: hmac.sign payload secretKey) = token := by
  decide +kernel

/-- A part of a second makes no difference to the payload. -/
theorem payloadText_late : lateClaims.payloadText = payload := by
  have hissued : late.wholeSeconds = start.wholeSeconds := by decide +kernel
  have hexpires : promised.wholeSeconds = finish.wholeSeconds := by decide +kernel
  have hpayload : lateClaims.payload = claims.payload := by
    rw [TokenClaims.payload, TokenClaims.payload, lateClaims, hissued, hexpires]
    rfl
  unfold payload TokenClaims.payloadText
  rw [hpayload]

theorem issued : issueToken hmac "agus" secretKey 900 jti start = .ok (token, claims) := by
  have hadd : start.addSeconds 900 = some finish := by decide
  rw [issueToken_of_addSeconds hadd, ← token_eq]
  rfl

theorem issued_late :
    issueToken hmac "agus" secretKey 900 jti late = .ok (token, lateClaims) := by
  have hadd : late.addSeconds 900 = some promised := by decide
  rw [issueToken_of_addSeconds hadd, ← token_eq, ← payloadText_late]
  rfl

theorem verified (now : Instant) : verifyToken hmac interpreter token secretKey now =
    if finish ≤ now then .error (.tokenExpired "Token expirado") else .ok claims := by
  have hwire : claims.onWire = some claims := claims.onWire_eq_some_iff.mpr (by decide)
  rw [← token_eq]
  refine (verifyToken_issued hmac interpreter secretKey now claims).trans ?_
  rw [TokenClaims.received, hwire]
  rfl

end Noon

theorem noon_roundTrips :
    RoundTrips Noon.hmac Noon.interpreter Noon.secretKey Noon.tried Noon.token Noon.claims :=
  (roundTrips_iff_isWhole Noon.hmac Noon.interpreter Noon.tried "agus" Noon.secretKey Noon.jti
    Noon.token 900 Noon.start Noon.claims Noon.unforgeable (.inl rfl) Noon.issued).mpr
    (by decide)

/-- Half a second after noon the same token is issued. It has expired by a quarter of a second
before its claims say so. -/
theorem fraction_lost :
    issueToken Noon.hmac "agus" Noon.secretKey 900 Noon.jti Noon.late =
        .ok (Noon.token, Noon.lateClaims) ∧
      Noon.hmac.Unforgeable Noon.tried ∧
      signingInput Noon.secretKey Noon.lateClaims.payloadText ∈ Noon.tried ∧
      Noon.early < Noon.lateClaims.expiresAt ∧
      verifyToken Noon.hmac Noon.interpreter Noon.token Noon.secretKey Noon.early =
        .error (.tokenExpired "Token expirado") ∧
      verifyToken Noon.hmac Noon.interpreter Noon.token Noon.secretKey Noon.late =
        .ok Noon.claims ∧
      ¬RoundTrips Noon.hmac Noon.interpreter Noon.secretKey Noon.tried Noon.token
        Noon.lateClaims := by
  have hexpired : verifyToken Noon.hmac Noon.interpreter Noon.token Noon.secretKey Noon.early =
      .error (.tokenExpired "Token expirado") :=
    (Noon.verified Noon.early).trans (if_pos (by decide))
  have hbefore : Noon.early < Noon.lateClaims.expiresAt := by decide
  refine ⟨Noon.issued_late, Noon.unforgeable, .inl (by rw [Noon.payloadText_late]), hbefore,
    hexpired, (Noon.verified Noon.late).trans (if_neg (by decide)), fun h => ?_⟩
  have hvalid := h.valid Noon.early hbefore
  rw [hexpired] at hvalid
  cases hvalid

end FuturesBot
