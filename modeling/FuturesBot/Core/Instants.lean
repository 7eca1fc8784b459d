import FuturesBot.Core.Arithmetic

namespace FuturesBot
open Lib

def microsecondsPerSecond : ℤ := 1000000

/-- The `datetime`s of the years 1 to 9999, in UTC, as microseconds since the epoch. -/
structure Instant where
  microseconds : ℤ
  range : -62135596800 * microsecondsPerSecond ≤ microseconds ∧
    microseconds < 253402300800 * microsecondsPerSecond
  deriving DecidableEq

namespace Instant

instance : LE Instant := ⟨fun t t' => t.microseconds ≤ t'.microseconds⟩
instance : LT Instant := ⟨fun t t' => t.microseconds < t'.microseconds⟩

instance (t t' : Instant) : Decidable (t ≤ t') := inferInstanceAs (Decidable (_ ≤ _))
instance (t t' : Instant) : Decidable (t < t') := inferInstanceAs (Decidable (_ < _))

def ofMicroseconds (n : ℤ) : Option Instant :=
  if h : -62135596800 * microsecondsPerSecond ≤ n ∧ n < 253402300800 * microsecondsPerSecond then
    some ⟨n, h⟩
  else none

theorem ofMicroseconds_self (t : Instant) : ofMicroseconds t.microseconds = some t :=
  dif_pos t.range

theorem ofMicroseconds_some (h : ofMicroseconds n = some t) : t.microseconds = n := by
  unfold ofMicroseconds at h
  split at h <;> cases h
  rfl

/-- The first moment of the year 1. -/
def first : Instant := ⟨-62135596800 * microsecondsPerSecond, by decide⟩

theorem first_lt (h : t ≠ first) : first < t := by
  refine lt_of_le_of_ne t.range.1 fun heq => h ?_
  cases t
  cases heq
  rfl

/-- Adding a `timedelta` may leave the range. -/
def addSeconds (t : Instant) (seconds : ℤ) : Option Instant :=
  ofMicroseconds (t.microseconds + seconds * microsecondsPerSecond)

def timestamp (t : Instant) : ℚ := nearestFloat (t.microseconds / microsecondsPerSecond)

/-- `int` of the timestamp. -/
def wholeSeconds (t : Instant) : ℤ := roundDown t.timestamp

/-- They stay of the size of the range. -/
theorem abs_wholeSeconds_lt (t : Instant) : |t.wholeSeconds| < 1000000000000 := by
  have hseconds : |(t.microseconds : ℚ) / microsecondsPerSecond| ≤ 253402300800 := by
    have hlow : ((-62135596800 * microsecondsPerSecond : ℤ) : ℚ) ≤ t.microseconds := by
      exact_mod_cast t.range.1
    have hhigh : (t.microseconds : ℚ) < ((253402300800 * microsecondsPerSecond : ℤ) : ℚ) := by
      exact_mod_cast t.range.2
    have hsecond : (0 : ℚ) < microsecondsPerSecond := by norm_num [microsecondsPerSecond]
    push_cast at hlow hhigh
    rw [abs_le, le_div_iff₀ hsecond, div_le_iff₀ hsecond]
    constructor <;> linarith
  have hstamp : |t.timestamp| ≤ 2 * 253402300800 :=
    (abs_nearestFloat_le _).trans (mul_le_mul_of_nonneg_left hseconds zero_le_two)
  have hwhole := abs_roundDown_le t.timestamp
  have hbound : (|t.wholeSeconds| : ℚ) < 1000000000000 :=
    (hwhole.trans hstamp).trans_lt (by norm_num)
  exact_mod_cast hbound

/-- No part of a second. -/
def IsWhole (t : Instant) : Prop := t.microseconds % microsecondsPerSecond = 0

instance (t : Instant) : Decidable t.IsWhole := inferInstanceAs (Decidable (_ = _))

theorem isWhole_addSeconds {t t' : Instant} (h : t.addSeconds n = some t') :
    t'.IsWhole ↔ t.IsWhole := by
  rw [IsWhole, ofMicroseconds_some h, Int.add_mul_emod_self_right]
  rfl

/-- Just the whole seconds are what is left of them. -/
theorem ofMicroseconds_wholeSeconds_iff (t : Instant) :
    ofMicroseconds (t.wholeSeconds * microsecondsPerSecond) = some t ↔ t.IsWhole := by
  constructor
  · intro h
    rw [IsWhole, ofMicroseconds_some h]
    exact Int.mul_emod_left _ _
  · intro h
    obtain ⟨n, hn⟩ : ∃ n : ℤ, t.microseconds = n * microsecondsPerSecond :=
      ⟨_, (Int.ediv_mul_cancel (Int.dvd_of_emod_eq_zero h)).symm⟩
    have hrange := t.range
    rw [hn] at hrange
    have hsmall : |n| < 2 ^ 53 := by
      have hsecond : (0 : ℤ) < microsecondsPerSecond := by decide
      have hlow : -62135596800 ≤ n := le_of_mul_le_mul_right hrange.1 hsecond
      have hhigh : n < 253402300800 := lt_of_mul_lt_mul_right hrange.2 hsecond.le
      rw [abs_lt]
      constructor <;> omega
    have hexact : t.timestamp = n := by
      have hsecond : (microsecondsPerSecond : ℚ) ≠ 0 := by norm_num [microsecondsPerSecond]
      rw [timestamp, hn, Int.cast_mul, mul_div_cancel_right₀ _ hsecond,
        nearestFloat_intCast hsmall]
    have hwhole : t.wholeSeconds = n := by
      rw [wholeSeconds, hexact, roundDown, Int.floor_intCast, Int.ceil_intCast, ite_self]
    rw [hwhole, ← hn, ofMicroseconds_self]

end Instant

end FuturesBot
