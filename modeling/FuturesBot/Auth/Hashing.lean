import FuturesBot.Core.Errors
import FuturesBot.Lib.Base64
import FuturesBot.Lib.Json
import Mathlib.Data.List.DropRight

namespace FuturesBot
open Lib

/-- What scrypt asks of its costs. -/
def ValidCosts (n r p : ℕ) : Prop := (1 < n ∧ n &&& (n - 1) = 0) ∧ 1 ≤ r ∧ 1 ≤ p

instance ValidCosts.decidable (n r p : ℕ) : Decidable (ValidCosts n r p) :=
  inferInstanceAs (Decidable ((_ ∧ _) ∧ _))

/-- `hashlib.scrypt`, of which only its demands and the length of the key are known here. The
costs are handed on as 64-bit numbers. -/
structure Scrypt where
  derive : (password salt : List UInt8) → (n r p dklen maxmem : ℕ) → Except PyError (List UInt8)
  demands : derive password salt n r p dklen maxmem = .ok key →
    (key.length = dklen ∧ ValidCosts n r p) ∧ n < 2 ^ 64 ∧ r < 2 ^ 64 ∧ p < 2 ^ 64

def maxmem (n r : ℕ) : ℕ := 128 * n * r * 2

def saltBytes : ℕ := 16

def keyBytes : ℕ := 32

def algorithm : List Char := "scrypt".toList

/-- The salt of a new hash, from `secrets.token_bytes`. -/
structure Salt where
  bytes : List UInt8
  length_bytes : bytes.length = saltBytes

/-- The fields of an encoded hash, whose structure has been checked. -/
structure ParsedHash where
  n : ℕ
  r : ℕ
  p : ℕ
  salt : List UInt8
  digest : List UInt8
  costs : ValidCosts n r p
  nonempty : salt ≠ [] ∧ digest ≠ []

/-- What `int` drops at both ends of an ASCII text. -/
def isAsciiBlank (c : Char) : Bool := c = ' ' ∨ 9 ≤ c.toNat ∧ c.toNat ≤ 13

/-- Digits, of which any two may have an underscore between them. -/
def natOfDigits (text : List Char) : Option ℕ :=
  let groups := text.splitOn '_'
  if groups.all (fun group => group ≠ [] ∧ group.all Char.isDigit) ∧
      groups.flatten.length ≤ 4300 then
    some (Nat.ofDigitChars 10 groups.flatten 0)
  else none

/-- `int` of a text. The digits and blanks outside of ASCII are the interpreter's. -/
def intOfText (foreign : List Char → Option ℤ) (text : List Char) : Option ℤ :=
  if ¬text.all (fun c => c.toNat < 128) then foreign text
  else
    match (text.dropWhile isAsciiBlank).rdropWhile isAsciiBlank with
    | '-' :: digits => (natOfDigits digits).map fun n => -(n : ℤ)
    | '+' :: digits => (natOfDigits digits).map fun n => (n : ℤ)
    | digits => (natOfDigits digits).map fun n => (n : ℤ)

/-- `_b64decode`, which takes no other text than ASCII. -/
def decodeField (text : List Char) : Option (List UInt8) :=
  if text.all (fun c => c.toNat < 128) then Base64.decode text else none

section Parsing
variable (foreign : List Char → Option ℤ)

/-- `_parse`, the one place where a hash is read. -/
def parseHash (encoded : String) : Option ParsedHash :=
  match encoded.toList.splitOn '$' with
  | [name, nRaw, rRaw, pRaw, saltB64, hashB64] =>
    if name ≠ algorithm then none
    else do
      let n ← intOfText foreign nRaw
      let r ← intOfText foreign rRaw
      let p ← intOfText foreign pRaw
      let salt ← decodeField saltB64
      let digest ← decodeField hashB64
      if h : ValidCosts n.toNat r.toNat p.toNat ∧ salt ≠ [] ∧ digest ≠ [] then
        some ⟨n.toNat, r.toNat, p.toNat, salt, digest, h.1, h.2⟩
      else none
  | _ => none

def validatePasswordHash (encoded : String) : Bool := (parseHash foreign encoded).isSome

/-- The text of a hash. -/
def encodeHash (n r p : ℕ) (salt derived : List UInt8) : String :=
  String.ofList (['$'].intercalate
    [algorithm, Nat.toDigits 10 n, Nat.toDigits 10 r, Nat.toDigits 10 p, Base64.encode salt,
      Base64.encode derived])

def hashPassword (scrypt : Scrypt) (password : String) (salt : Salt) (n r p : ℕ) :
    Except PyError String := do
  let derived ← scrypt.derive (Json.utf8 password.toList) salt.bytes n r p keyBytes (maxmem n r)
  pure (encodeHash n r p salt.bytes derived)

/-- The errors of scrypt that mean no more than a wrong password. -/
def PyError.isScryptRefusal : PyError → Bool
  | .valueError _ => true
  | .external name => name = "MemoryError"
  | _ => false

/-- A hash that cannot be read is a wrong password. -/
def verifyPassword (scrypt : Scrypt) (password encoded : String) : Except PyError Bool :=
  match parseHash foreign encoded with
  | none => .ok false
  | some parsed =>
    match scrypt.derive (Json.utf8 password.toList) parsed.salt parsed.n parsed.r parsed.p
        parsed.digest.length (maxmem parsed.n parsed.r) with
    | .ok derived => .ok (derived = parsed.digest)
    | .error e => if e.isScryptRefusal then .ok false else .error e

end Parsing

theorem natOfDigits_toDigits (h : (Nat.toDigits 10 n).length ≤ 4300) :
    natOfDigits (Nat.toDigits 10 n) = some n := by
  have hdigit : ∀ c ∈ Nat.toDigits 10 n, c.isDigit :=
    fun _ hc => Nat.isDigit_of_mem_toDigits (by decide) (by decide) hc
  have hsplit : (Nat.toDigits 10 n).splitOn '_' = [Nat.toDigits 10 n] :=
    List.splitOn_eq_singleton fun hmem => absurd (hdigit _ hmem) (by decide)
  unfold natOfDigits
  rw [hsplit, if_pos]
  · rw [List.flatten_singleton, Nat.ofDigitChars_ten_toDigits]
  · rw [List.flatten_singleton]
    refine ⟨?_, h⟩
    rw [List.all_cons, List.all_nil, Bool.and_true, decide_eq_true_eq]
    exact ⟨Nat.toDigits_ne_nil, List.all_eq_true.mpr hdigit⟩

section Reading
variable {foreign : List Char → Option ℤ}

/-- A number is read as it is written. -/
theorem intOfText_toDigits (h : (Nat.toDigits 10 n).length ≤ 4300) :
    intOfText foreign (Nat.toDigits 10 n) = some n := by
  have hdigit : ∀ c ∈ Nat.toDigits 10 n, c.isDigit :=
    fun _ hc => Nat.isDigit_of_mem_toDigits (by decide) (by decide) hc
  have hascii : (Nat.toDigits 10 n).all (fun c => c.toNat < 128) = true :=
    List.all_eq_true.mpr fun c hc => decide_eq_true (Json.plain_of_isDigit (hdigit c hc)).2
  have hblank : ∀ c ∈ Nat.toDigits 10 n, isAsciiBlank c = false := by
    intro c hc
    have hc := hdigit c hc
    rw [Char.isDigit_iff_toNat] at hc
    rw [isAsciiBlank, decide_eq_false]
    rintro (rfl | hc')
    · exact absurd hc (by decide)
    · simp at hc
      omega
  have hfront : (Nat.toDigits 10 n).dropWhile isAsciiBlank = Nat.toDigits 10 n :=
    List.dropWhile_eq_self_iff.mpr fun _ => Bool.eq_false_iff.mp (hblank _ (List.getElem_mem _))
  have hback : (Nat.toDigits 10 n).rdropWhile isAsciiBlank = Nat.toDigits 10 n :=
    List.rdropWhile_eq_self_iff.mpr fun hne =>
      Bool.eq_false_iff.mp (hblank _ (List.getLast_mem hne))
  unfold intOfText
  rw [hascii, if_neg (not_not.mpr rfl), hfront, hback]
  split
  · rename_i digits htext
    exact absurd (hdigit '-' (htext ▸ List.mem_cons_self)) (by decide)
  · rename_i digits htext
    exact absurd (hdigit '+' (htext ▸ List.mem_cons_self)) (by decide)
  · rw [natOfDigits_toDigits h]
    rfl

theorem decodeField_encode (bytes : List UInt8) :
    decodeField (Base64.encode bytes) = some bytes := by
  have hascii : (Base64.encode bytes).all (fun c => c.toNat < 128) = true :=
    List.all_eq_true.mpr fun c hc => decide_eq_true (Base64.plain_of_mem_encode hc).2
  rw [decodeField, if_pos hascii, Base64.decode_encode]

/-- No field of a hash has a dollar sign in it. -/
theorem fields_of_encodeHash (n r p : ℕ) (salt derived : List UInt8) :
    (encodeHash n r p salt derived).toList.splitOn '$' =
      [algorithm, Nat.toDigits 10 n, Nat.toDigits 10 r, Nat.toDigits 10 p, Base64.encode salt,
        Base64.encode derived] := by
  have hnumber : ∀ m, '$' ∉ Nat.toDigits 10 m := fun m hm =>
    absurd (Nat.isDigit_of_mem_toDigits (by decide) (by decide) hm) (by decide)
  rw [encodeHash, String.toList_ofList]
  refine List.splitOn_intercalate '$' ?_ (List.cons_ne_nil _ _)
  simp only [List.forall_mem_cons]
  refine ⟨by decide, hnumber n, hnumber r, hnumber p, ?_, ?_, List.forall_mem_nil _⟩
  · exact Base64.dollar_notMem_encode
  · exact Base64.dollar_notMem_encode

/-- A hash is read back from its text. -/
theorem parseHash_encodeHash (parsed : ParsedHash)
    (hreadable : ∀ m ∈ [parsed.n, parsed.r, parsed.p], (Nat.toDigits 10 m).length ≤ 4300) :
    parseHash foreign (encodeHash parsed.n parsed.r parsed.p parsed.salt parsed.digest) =
      some parsed := by
  simp only [List.forall_mem_cons] at hreadable
  obtain ⟨hn, hr, hp, -⟩ := hreadable
  unfold parseHash
  rw [fields_of_encodeHash]
  dsimp only
  rw [if_neg (not_not.mpr rfl), intOfText_toDigits hn, intOfText_toDigits hr,
    intOfText_toDigits hp, decodeField_encode, decodeField_encode]
  exact dif_pos ⟨parsed.costs, parsed.nonempty⟩

theorem readable_of_lt (h : n < 2 ^ 64) : (Nat.toDigits 10 n).length ≤ 4300 := by
  have hdigits : (Nat.toDigits 10 n).length ≤ 20 := by
    rw [Nat.length_toDigits_le_iff (by decide) (by decide)]
    omega
  exact hdigits.trans (by decide)

/-- A new hash, with the key that scrypt has derived. -/
theorem parseHash_hashPassword (foreign : List Char → Option ℤ) {scrypt : Scrypt} {salt : Salt}
    (h : hashPassword scrypt password salt n r p = .ok encoded) :
    ∃ parsed, parseHash foreign encoded = some parsed ∧
      (parsed.n = n ∧ parsed.r = r ∧ parsed.p = p ∧ parsed.salt = salt.bytes) ∧
      parsed.digest.length = keyBytes ∧
      scrypt.derive (Json.utf8 password.toList) salt.bytes n r p keyBytes (maxmem n r) =
        .ok parsed.digest := by
  unfold hashPassword at h
  cases hderive : scrypt.derive (Json.utf8 password.toList) salt.bytes n r p keyBytes
      (maxmem n r) with
  | error e =>
    rw [hderive] at h
    cases h
  | ok derived =>
    rw [hderive] at h
    obtain rfl := Except.ok.inj h
    obtain ⟨⟨hlength, hcosts⟩, hn, hr, hp⟩ := scrypt.demands hderive
    have hsalt : salt.bytes ≠ [] := List.ne_nil_of_length_pos (by rw [salt.length_bytes]; decide)
    have hderived : derived ≠ [] := List.ne_nil_of_length_pos (by rw [hlength]; decide)
    refine ⟨⟨n, r, p, salt.bytes, derived, hcosts, hsalt, hderived⟩, ?_, ⟨rfl, rfl, rfl, rfl⟩,
      hlength, rfl⟩
    refine parseHash_encodeHash ⟨n, r, p, salt.bytes, derived, hcosts, hsalt, hderived⟩ ?_
    simp only [List.forall_mem_cons]
    exact ⟨readable_of_lt hn, readable_of_lt hr, readable_of_lt hp, List.forall_mem_nil _⟩

/-- A guess passes just if scrypt makes the key of the password out of it. -/
theorem verifyPassword_iff {scrypt : Scrypt} {parsed : ParsedHash}
    (h : parseHash foreign encoded = some parsed) (guess : String) :
    verifyPassword foreign scrypt guess encoded = .ok true ↔
      scrypt.derive (Json.utf8 guess.toList) parsed.salt parsed.n parsed.r parsed.p
        parsed.digest.length (maxmem parsed.n parsed.r) = .ok parsed.digest := by
  unfold verifyPassword
  rw [h]
  dsimp only
  split
  · rename_i derived hderive
    rw [hderive]
    simp
  · rename_i e hderive
    rw [hderive]
    split <;> simp

theorem verifyPassword_self {scrypt : Scrypt} {salt : Salt}
    (h : hashPassword scrypt password salt n r p = .ok encoded) :
    verifyPassword foreign scrypt password encoded = .ok true := by
  obtain ⟨parsed, hparsed, ⟨hn, hr, hp, hsalt⟩, hlength, hderive⟩ :=
    parseHash_hashPassword foreign h
  rw [verifyPassword_iff hparsed, hn, hr, hp, hsalt, hlength]
  exact hderive

end Reading

/- Samples at the lowest costs. -/
namespace Cheap

def salt : Salt := ⟨[0, 1, 2, 3, 4, 5, 6, 7, 8, 9, 10, 11, 12, 13, 14, 15], rfl⟩

def key : List UInt8 :=
  [35, 130, 246, 240, 232, 253, 199, 37, 173, 165, 110, 158, 118, 161, 250, 37,
    136, 154, 215, 162, 81, 217, 161, 222, 132, 14, 82, 26, 207, 34, 53, 77]

def otherKey : List UInt8 :=
  [194, 221, 32, 20, 27, 246, 190, 177, 177, 184, 47, 82, 200, 101, 222, 136,
    207, 237, 5, 22, 125, 152, 211, 241, 181, 115, 226, 14, 219, 106, 171, 247]

/-- One text has the first key, and every other one that is tried has the second. -/
def derive (password bytes : List UInt8) (n r p dklen _ : ℕ) : Except PyError (List UInt8) :=
  if n = 16 ∧ r = 1 ∧ p = 1 ∧ dklen = 32 ∧ bytes = salt.bytes then
    .ok (if password = Json.utf8 "la-correcta".toList then key else otherKey)
  else .error (.valueError "maxmem must be positive and smaller than 2147483647")

theorem derive_demands (h : derive password bytes n r p dklen memory = .ok key') :
    (key'.length = dklen ∧ ValidCosts n r p) ∧ n < 2 ^ 64 ∧ r < 2 ^ 64 ∧ p < 2 ^ 64 := by
  unfold derive at h
  split at h
  · rename_i hcosts
    obtain ⟨rfl, rfl, rfl, rfl, -⟩ := hcosts
    obtain rfl := Except.ok.inj h
    refine ⟨⟨?_, by decide⟩, by decide, by decide, by decide⟩
    split <;> rfl
  · cases h

def scrypt : Scrypt := ⟨derive, derive_demands⟩

def encoded : String :=
  "scrypt$16$1$1$AAECAwQFBgcICQoLDA0ODw$I4L28Oj9xyWtpW6edqH6JYia16JR2aHehA5SGs8iNU0"

theorem derived : scrypt.derive (Json.utf8 "la-correcta".toList) salt.bytes 16 1 1 keyBytes
    (maxmem 16 1) = .ok key := by
  decide +kernel

theorem hashed : hashPassword scrypt "la-correcta" salt 16 1 1 = .ok encoded := by
  have htext : encodeHash 16 1 1 salt.bytes key = encoded := by decide +kernel
  rw [hashPassword, derived, ← htext]
  rfl

end Cheap

/-- What is written for a password, at any costs, is taken when the process starts, and lets in
just those who type what scrypt cannot tell from the password. -/
theorem hashPassword_roundTrip (foreign : List Char → Option ℤ) (scrypt : Scrypt)
    (password encoded : String) (salt : Salt) (n r p : ℕ)
    (h : hashPassword scrypt password salt n r p = .ok encoded) :
    validatePasswordHash foreign encoded = true ∧ ∀ guess,
      verifyPassword foreign scrypt guess encoded = .ok true ↔
        scrypt.derive (Json.utf8 guess.toList) salt.bytes n r p keyBytes (maxmem n r) =
          scrypt.derive (Json.utf8 password.toList) salt.bytes n r p keyBytes (maxmem n r) := by
  obtain ⟨parsed, hparsed, ⟨rfl, rfl, rfl, hsalt⟩, hlength, hderive⟩ :=
    parseHash_hashPassword foreign h
  refine ⟨Option.isSome_of_eq_some hparsed, fun guess => ?_⟩
  rw [verifyPassword_iff hparsed, hderive, hsalt, hlength]

theorem cheap_roundTrip : validatePasswordHash (fun _ => none) Cheap.encoded = true ∧
    ∀ guess, verifyPassword (fun _ => none) Cheap.scrypt guess Cheap.encoded = .ok true ↔
      Cheap.scrypt.derive (Json.utf8 guess.toList) Cheap.salt.bytes 16 1 1 keyBytes
          (maxmem 16 1) =
        Cheap.scrypt.derive (Json.utf8 "la-correcta".toList) Cheap.salt.bytes 16 1 1 keyBytes
          (maxmem 16 1) :=
  hashPassword_roundTrip (fun _ => none) Cheap.scrypt "la-correcta" Cheap.encoded Cheap.salt 16 1 1
    Cheap.hashed

end FuturesBot
