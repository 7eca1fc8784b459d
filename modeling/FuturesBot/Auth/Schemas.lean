import FuturesBot.Core.Config
import Mathlib.Analysis.SpecialFunctions.Log.Basic

namespace FuturesBot

inductive LoginScope
  | username | ip
  deriving DecidableEq, Repr

/-- What failures are counted by. -/
structure LoginIdentity where
  scope : LoginScope
  identifier : String
  deriving DecidableEq, Repr

structure LoginAttempt where
  identity : LoginIdentity
  timestamp : Timestamp
  deriving DecidableEq, Repr

structure LoginLockout where
  lockedUntil : Timestamp
  lockoutCount : ℕ
  createdAt : Timestamp
  updatedAt : Timestamp
  deriving DecidableEq, Repr

/-- The two tables of the throttle, as a transaction sees them. The unique constraint
on `login_lockouts` makes the identity its key. -/
structure LoginTables where
  attempts : List LoginAttempt
  lockouts : LoginIdentity → Option LoginLockout

structure ThrottleDecision where
  locked : Bool
  retryAfterSeconds : ℤ
  scope : Option LoginScope := none

def maxIdentifierLength : ℕ := 255

def unknownIp : String := "unknown"

/-- What `str.strip` drops at both ends. -/
def isSpace (c : Char) : Bool :=
  c.val ∈ [0x09, 0x0A, 0x0B, 0x0C, 0x0D, 0x1C, 0x1D, 0x1E, 0x1F, 0x20, 0x85, 0xA0, 0x1680,
    0x2000, 0x2001, 0x2002, 0x2003, 0x2004, 0x2005, 0x2006, 0x2007, 0x2008, 0x2009, 0x200A,
    0x2028, 0x2029, 0x202F, 0x205F, 0x3000]

/-- The text without the blanks around it, cut to the length of the column. -/
def stripped (text : String) : String :=
  String.ofList
    (((text.toList.dropWhile isSpace).reverse.dropWhile isSpace).reverse.take maxIdentifierLength)

/-- The Unicode table of `str.casefold` is a parameter. -/
def normalizeUsername (casefold : String → String) (username : String) : String :=
  stripped (casefold username)

def normalizeIp : Option String → String
  | none => unknownIp
  | some ip =>
    if ip = "" then unknownIp else if stripped ip = "" then unknownIp else stripped ip

/-- One byte of the CRC of `zlib`, bit by bit. -/
def crc32Byte (crc : ℕ) (byte : UInt8) : ℕ :=
  (fun c => if c % 2 = 1 then (c >>> 1) ^^^ 0xEDB88320 else c >>> 1)^[8] (crc ^^^ byte.toNat)

def crc32 (bytes : List UInt8) : ℕ := bytes.foldl crc32Byte 0xFFFFFFFF ^^^ 0xFFFFFFFF

/-- A signed 32-bit number, which two identifiers may share. -/
def advisoryKey (identifier : String) : ℤ :=
  let key : ℤ := crc32 (identifier.toList.flatMap String.utf8EncodeChar)
  if 2 ^ 31 ≤ key then key - 2 ^ 32 else key

example : crc32 ("123456789".toList.flatMap String.utf8EncodeChar) = 0xCBF43926 := by
  decide +kernel

def lockNamespace : LoginScope → ℕ
  | .username => 1
  | .ip => 2

namespace LoginThrottleConfig

variable (config : LoginThrottleConfig)

/-- The lockout with this exponent would last at least the longest one. The source
compares the logarithms. -/
def AtCeiling (exponent : ℕ) : Prop :=
  (config.maxLockoutSeconds : ℚ) / config.lockoutSeconds ≤ config.lockoutBackoffFactor ^ exponent

instance (exponent : ℕ) : Decidable (config.AtCeiling exponent) :=
  inferInstanceAs (Decidable (_ ≤ _))

theorem atCeiling_iff_log (hf : 1 < config.lockoutBackoffFactor) (exponent : ℕ) :
    config.AtCeiling exponent ↔
      Real.log (config.maxLockoutSeconds / config.lockoutSeconds) /
        Real.log config.lockoutBackoffFactor ≤ exponent := by
  have hbase : (0 : ℝ) < config.lockoutSeconds := by
    exact_mod_cast config.positive.2.2.2.1
  have hmax : (0 : ℝ) < config.maxLockoutSeconds := by
    exact_mod_cast config.positive.2.2.2.2
  have hf' : (1 : ℝ) < config.lockoutBackoffFactor := by exact_mod_cast hf
  have hpow : (0 : ℝ) < (config.lockoutBackoffFactor : ℝ) ^ exponent := by positivity
  rw [div_le_iff₀ (Real.log_pos hf'), ← Real.log_pow,
    Real.log_le_log_iff (div_pos hmax hbase) hpow, AtCeiling, ← Rat.cast_le (K := ℝ)]
  push_cast
  exact Iff.rfl

end LoginThrottleConfig

/-- How long lockout number `lockoutCount` lasts. -/
def computeLockoutSeconds (lockoutCount : ℕ) (config : LoginThrottleConfig) : Except PyError ℕ :=
  if lockoutCount < 1 then .error (.valueError "lockout_count debe ser >= 1, recibido: ")
  else if config.lockoutBackoffFactor ≤ 1 then
    .ok (min config.lockoutSeconds config.maxLockoutSeconds)
  else if config.AtCeiling (lockoutCount - 1) then .ok config.maxLockoutSeconds
  else
    .ok (min ⌊config.lockoutSeconds * config.lockoutBackoffFactor ^ (lockoutCount - 1)⌋₊
      config.maxLockoutSeconds)

end FuturesBot
