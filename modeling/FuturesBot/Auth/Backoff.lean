import FuturesBot.Auth.Schemas

namespace FuturesBot

/-- What the length of a lockout depends on. A longest lockout below the first one is none that
the configuration lets through, but the calculation takes it. -/
structure LockoutTerms where
  lockoutSeconds : ℕ
  lockoutBackoffFactor : ℝ
  maxLockoutSeconds : ℕ
  lockout_pos : 1 ≤ lockoutSeconds
  backoff_at_least_one : 1 ≤ lockoutBackoffFactor
  max_pos : 1 ≤ maxLockoutSeconds

namespace LockoutTerms

variable (t : LockoutTerms)

/-- The exponent, which need not be whole, from which on a lockout is as long as it gets. -/
noncomputable def exponentAtCeiling : ℝ :=
  Real.log (t.maxLockoutSeconds / t.lockoutSeconds) / Real.log t.lockoutBackoffFactor

/-- `compute_lockout_seconds` over the real numbers, with its logarithms. -/
noncomputable def computeLockoutSeconds (lockoutCount : ℕ) : Except PyError ℕ :=
  if lockoutCount < 1 then .error (.valueError "lockout_count debe ser >= 1, recibido: ")
  else if t.lockoutBackoffFactor ≤ 1 then .ok (min t.lockoutSeconds t.maxLockoutSeconds)
  else
    let exponent := lockoutCount - 1
    if t.exponentAtCeiling ≤ exponent then .ok t.maxLockoutSeconds
    else
      .ok (min ⌊t.lockoutSeconds * t.lockoutBackoffFactor ^ exponent⌋₊ t.maxLockoutSeconds)

variable {t : LockoutTerms}

/-- The guard is passed just when the power reaches the longest lockout. -/
theorem exponentAtCeiling_le_iff (hf : 1 < t.lockoutBackoffFactor) (exponent : ℕ) :
    t.exponentAtCeiling ≤ exponent ↔
      t.maxLockoutSeconds ≤ t.lockoutSeconds * t.lockoutBackoffFactor ^ exponent := by
  have hbase : (0 : ℝ) < t.lockoutSeconds := by exact_mod_cast t.lockout_pos
  have hmax : (0 : ℝ) < t.maxLockoutSeconds := by exact_mod_cast t.max_pos
  have hpow : 0 < t.lockoutBackoffFactor ^ exponent := pow_pos (one_pos.trans hf) _
  rw [exponentAtCeiling, div_le_iff₀ (Real.log_pos hf), ← Real.log_pow,
    Real.log_le_log_iff (div_pos hmax hbase) hpow, div_le_iff₀' hbase]

/-- With or without the guard the length is the same. -/
theorem computeLockoutSeconds_eq (t : LockoutTerms) (h : 1 ≤ n) :
    t.computeLockoutSeconds n =
      .ok (min ⌊t.lockoutSeconds * t.lockoutBackoffFactor ^ (n - 1)⌋₊ t.maxLockoutSeconds) := by
  rw [computeLockoutSeconds, if_neg (not_lt.mpr h)]
  split
  · rename_i hf
    have hone : t.lockoutBackoffFactor = 1 := le_antisymm hf t.backoff_at_least_one
    rw [hone, one_pow, mul_one, Nat.floor_natCast]
  · rename_i hf
    dsimp only
    split
    · rename_i hceiling
      have hreached := (exponentAtCeiling_le_iff (not_le.mp hf) (n - 1)).mp hceiling
      rw [min_eq_right (Nat.le_floor hreached)]
    · rfl

theorem one_le_of_ok (t : LockoutTerms) (h : t.computeLockoutSeconds n = .ok s) :
    1 ≤ n := by
  by_contra hn
  rw [computeLockoutSeconds, if_pos (not_le.mp hn)] at h
  cases h

/-- Every lockout lasts as long as the power says, up to the longest one. None is shorter than
the one before it, and none shorter than the first. -/
theorem lockout_seconds_laws (t : LockoutTerms) :
    (∀ n, 1 ≤ n → t.computeLockoutSeconds n =
      .ok (min ⌊t.lockoutSeconds * t.lockoutBackoffFactor ^ (n - 1)⌋₊ t.maxLockoutSeconds)) ∧
    (∀ n n' s s', n ≤ n' → t.computeLockoutSeconds n = .ok s →
      t.computeLockoutSeconds n' = .ok s' → s ≤ s') ∧
    ∀ n s, t.computeLockoutSeconds n = .ok s →
      min t.lockoutSeconds t.maxLockoutSeconds ≤ s ∧ s ≤ t.maxLockoutSeconds := by
  have hbase : (0 : ℝ) ≤ t.lockoutSeconds := Nat.cast_nonneg _
  refine ⟨fun n => t.computeLockoutSeconds_eq, fun n n' s s' hle h h' => ?_, fun n s h => ?_⟩
  · have hn := t.one_le_of_ok h
    rw [t.computeLockoutSeconds_eq hn] at h
    rw [t.computeLockoutSeconds_eq (hn.trans hle)] at h'
    cases h
    cases h'
    have hpow : t.lockoutBackoffFactor ^ (n - 1) ≤ t.lockoutBackoffFactor ^ (n' - 1) :=
      pow_le_pow_right₀ t.backoff_at_least_one (Nat.sub_le_sub_right hle 1)
    exact min_le_min_right _ (Nat.floor_mono (mul_le_mul_of_nonneg_left hpow hbase))
  · rw [t.computeLockoutSeconds_eq (t.one_le_of_ok h)] at h
    cases h
    refine ⟨min_le_min_right _ (Nat.le_floor ?_), min_le_right _ _⟩
    exact le_mul_of_one_le_right hbase (one_le_pow₀ t.backoff_at_least_one)

/-- A first lockout that is already above the longest one. -/
def shortCeiling : LockoutTerms where
  lockoutSeconds := 10
  lockoutBackoffFactor := 2
  maxLockoutSeconds := 3
  lockout_pos := by norm_num
  backoff_at_least_one := by norm_num
  max_pos := by norm_num

theorem short_ceiling_reached : shortCeiling.computeLockoutSeconds 2 = .ok 3 := by
  have hlaw := shortCeiling.lockout_seconds_laws.1 2 (by decide)
  have hmin : (3 : ℕ) ≤ ⌊(10 : ℕ) * (2 : ℝ) ^ (2 - 1)⌋₊ := Nat.le_floor (by norm_num)
  rw [hlaw]
  exact congrArg Except.ok (min_eq_right hmin)

end LockoutTerms

def LoginThrottleConfig.terms (config : LoginThrottleConfig) : LockoutTerms where
  lockoutSeconds := config.lockoutSeconds
  lockoutBackoffFactor := config.lockoutBackoffFactor
  maxLockoutSeconds := config.maxLockoutSeconds
  lockout_pos := config.positive.2.2.2.1
  backoff_at_least_one := by exact_mod_cast config.backoff_at_least_one
  max_pos := config.positive.2.2.2.2

/-- What the throttle of the logins calculates without logarithms is the same. -/
theorem computeLockoutSeconds_terms (n : ℕ) (config : LoginThrottleConfig) :
    computeLockoutSeconds n config = config.terms.computeLockoutSeconds n := by
  have hone : config.terms.lockoutBackoffFactor ≤ 1 ↔ config.lockoutBackoffFactor ≤ 1 := by
    change (config.lockoutBackoffFactor : ℝ) ≤ 1 ↔ _
    exact_mod_cast Iff.rfl
  have hpower : ⌊config.terms.lockoutSeconds * config.terms.lockoutBackoffFactor ^ (n - 1)⌋₊ =
      ⌊config.lockoutSeconds * config.lockoutBackoffFactor ^ (n - 1)⌋₊ := by
    change ⌊(config.lockoutSeconds : ℝ) * (config.lockoutBackoffFactor : ℝ) ^ (n - 1)⌋₊ = _
    rw [← Int.floor_toNat, ← Int.floor_toNat]
    exact_mod_cast congrArg Int.toNat (Rat.floor_cast _)
  unfold computeLockoutSeconds LockoutTerms.computeLockoutSeconds
  simp only [hone, hpower]
  split
  · rfl
  split
  · rfl
  · rename_i hf
    have hceiling : config.AtCeiling (n - 1) ↔
        config.terms.exponentAtCeiling ≤ (n - 1 : ℕ) :=
      config.atCeiling_iff_log (not_le.mp hf) (n - 1)
    simp only [hceiling]
    rfl

end FuturesBot
