import FuturesBot.Lib.Quantize
import Mathlib.Data.Int.ConditionallyCompleteOrder
import Mathlib.Data.Int.Log

namespace Lib

theorem roundHalfEven_neg (x : ℚ) : roundHalfEven (-x) = -roundHalfEven x := by
  rcases near_or_half x with ⟨k, hk⟩ | ⟨k, rfl⟩
  · have hother : |-x - (-k : ℤ)| < 1 / 2 := by
      rw [Int.cast_neg, ← neg_sub', abs_neg]
      exact hk
    rw [roundHalfEven_near hk, roundHalfEven_near hother]
  · have hother : -((k : ℚ) + 1 / 2) = (-k - 1 : ℤ) + 1 / 2 := by
      push_cast
      ring
    rw [hother, roundHalfEven_half, roundHalfEven_half]
    split <;> split <;> omega

theorem roundHalfEven_mono : Monotone roundHalfEven := by
  intro x y hxy
  by_contra hlt
  have hy := (roundHalfEven_lt_iff y (roundHalfEven x)).mp (not_le.mp hlt)
  have hx := mt (roundHalfEven_lt_iff x (roundHalfEven x)).mpr (lt_irrefl _)
  rcases hy with hy | ⟨hy, hodd⟩
  · exact hx (.inl (hxy.trans_lt hy))
  · rcases (hxy.trans_eq hy).lt_or_eq with hlow | heq
    · exact hx (.inl hlow)
    · exact hx (.inr ⟨heq, hodd⟩)

/-- The nearest number of `digits` digits to the base `base`, ties to the even one. Its exponent is
not bounded. -/
def roundDigits (base digits : ℕ) (x : ℚ) : ℚ :=
  if x = 0 then 0
  else
    let unit : ℚ := base ^ (Int.log base |x| + 1 - digits)
    roundHalfEven (x / unit) * unit

section
variable {base digits : ℕ}

@[simp] theorem roundDigits_zero : roundDigits base digits 0 = 0 := if_pos rfl

theorem roundDigits_neg (x : ℚ) : roundDigits base digits (-x) = -roundDigits base digits x := by
  unfold roundDigits
  by_cases h : x = 0
  · simp [h]
  · rw [if_neg (neg_ne_zero.mpr h), if_neg h, abs_neg]
    dsimp only
    rw [neg_div, roundHalfEven_neg, Int.cast_neg, neg_mul]

/-- A whole number of units is there as it is. -/
theorem roundDigits_of_unit {x : ℚ} {n : ℤ} (hbase : 1 < base)
    (h : x = n * (base : ℚ) ^ (Int.log base |x| + 1 - digits)) :
    roundDigits base digits x = x := by
  have hunit : (base : ℚ) ^ (Int.log base |x| + 1 - digits) ≠ 0 :=
    zpow_ne_zero _ (by positivity)
  unfold roundDigits
  split
  · rename_i hzero
    exact hzero.symm
  · dsimp only
    have hscaled : x / (base : ℚ) ^ (Int.log base |x| + 1 - digits) = n :=
      (div_eq_iff hunit).mpr h
    rw [hscaled, roundHalfEven_intCast]
    exact h.symm

/-- So is a number that needs no more digits. -/
theorem roundDigits_short (hbase : 1 < base) {n : ℤ} (h : |n| < base ^ digits) (e : ℤ) :
    roundDigits base digits (n * (base : ℚ) ^ e) = n * (base : ℚ) ^ e := by
  have hb : (0 : ℚ) < base := by positivity
  by_cases hzero : n = 0
  · simp [hzero]
  have hpos : 0 < |(n : ℚ) * (base : ℚ) ^ e| :=
    abs_pos.mpr (mul_ne_zero (by exact_mod_cast hzero) (zpow_ne_zero _ hb.ne'))
  have hlt : |(n : ℚ) * (base : ℚ) ^ e| < (base : ℚ) ^ (digits + e) := by
    rw [abs_mul, abs_of_pos (zpow_pos hb e), zpow_add₀ hb.ne']
    refine mul_lt_mul_of_pos_right ?_ (zpow_pos hb e)
    exact_mod_cast h
  have hlog := (Int.lt_zpow_iff_log_lt hbase hpos).mp hlt
  obtain ⟨k, hk⟩ : ∃ k : ℕ, e = Int.log base |(n : ℚ) * (base : ℚ) ^ e| + 1 - digits + k :=
    ⟨(e + digits - 1 - Int.log base |(n : ℚ) * (base : ℚ) ^ e|).toNat, by omega⟩
  refine roundDigits_of_unit (n := n * base ^ k) hbase ?_
  have hsplit : (base : ℚ) ^ e = (base : ℚ) ^ k *
      (base : ℚ) ^ (Int.log base |(n : ℚ) * (base : ℚ) ^ e| + 1 - digits) := by
    rw [← zpow_natCast, ← zpow_add₀ hb.ne', add_comm (k : ℤ), ← hk]
  push_cast
  rw [mul_assoc, ← hsplit]

/-- Rounding does not leave the powers of the base that a number is between. -/
theorem roundDigits_between (hbase : 1 < base) (hdigits : 0 < digits) {x : ℚ} (hx : 0 < x) :
    (base : ℚ) ^ Int.log base x ≤ roundDigits base digits x ∧
      roundDigits base digits x ≤ (base : ℚ) ^ (Int.log base x + 1) := by
  have hb : (0 : ℚ) < base := by positivity
  have hlow : (base : ℚ) ^ Int.log base x ≤ x := Int.zpow_log_le_self hbase hx
  have hhigh : x < (base : ℚ) ^ (Int.log base x + 1) := Int.lt_zpow_succ_log_self hbase x
  unfold roundDigits
  rw [if_neg hx.ne', abs_of_pos hx]
  dsimp only
  have hunit : (0 : ℚ) < (base : ℚ) ^ (Int.log base x + 1 - digits) := zpow_pos hb _
  have hlower : (base : ℚ) ^ Int.log base x =
      ((base ^ (digits - 1) : ℕ) : ℤ) * (base : ℚ) ^ (Int.log base x + 1 - digits) := by
    push_cast
    rw [← zpow_natCast, ← zpow_add₀ hb.ne']
    congr 1
    omega
  have hupper : (base : ℚ) ^ (Int.log base x + 1) =
      ((base ^ digits : ℕ) : ℤ) * (base : ℚ) ^ (Int.log base x + 1 - digits) := by
    push_cast
    rw [← zpow_natCast, ← zpow_add₀ hb.ne']
    congr 1
    omega
  rw [hlower] at hlow
  rw [hupper] at hhigh
  rw [hlower, hupper]
  have hfirst := le_roundHalfEven ((le_div_iff₀ hunit).mpr hlow)
  have hlast := roundHalfEven_le ((div_le_iff₀ hunit).mpr hhigh.le)
  exact ⟨mul_le_mul_of_nonneg_right (by exact_mod_cast hfirst) hunit.le,
    mul_le_mul_of_nonneg_right (by exact_mod_cast hlast) hunit.le⟩

theorem roundDigits_pos (hbase : 1 < base) (hdigits : 0 < digits) {x : ℚ} (hx : 0 < x) :
    0 < roundDigits base digits x :=
  (zpow_pos (by positivity) _).trans_le (roundDigits_between hbase hdigits hx).1

theorem roundDigits_pow (hbase : 1 < base) (hdigits : 0 < digits) (e : ℤ) :
    roundDigits base digits ((base : ℚ) ^ e) = (base : ℚ) ^ e := by
  have hlt : |(1 : ℤ)| < base ^ digits := by
    rw [abs_one]
    exact_mod_cast Nat.one_lt_pow hdigits.ne' hbase
  simpa using roundDigits_short hbase hlt e

/-- What has been rounded is not changed by rounding it again. -/
theorem roundDigits_roundDigits (hbase : 1 < base) (hdigits : 0 < digits) (x : ℚ) :
    roundDigits base digits (roundDigits base digits x) = roundDigits base digits x := by
  have hpositive : ∀ y : ℚ, 0 < y →
      roundDigits base digits (roundDigits base digits y) = roundDigits base digits y := by
    intro y hy
    obtain ⟨hlow, hhigh⟩ := roundDigits_between hbase hdigits hy
    rcases hhigh.eq_or_lt with htop | hlt
    · rw [htop]
      exact roundDigits_pow hbase hdigits _
    · have hpos := roundDigits_pos hbase hdigits hy
      have hlog : Int.log base |roundDigits base digits y| = Int.log base y := by
        rw [abs_of_pos hpos]
        exact le_antisymm (Int.lt_add_one_iff.mp ((Int.lt_zpow_iff_log_lt hbase hpos).mp hlt))
          ((Int.zpow_le_iff_le_log hbase hpos).mp hlow)
      have hunits : roundDigits base digits y =
          roundHalfEven (y / (base : ℚ) ^ (Int.log base y + 1 - digits)) *
            (base : ℚ) ^ (Int.log base y + 1 - digits) := by
        unfold roundDigits
        rw [if_neg hy.ne', abs_of_pos hy]
      rw [← hlog] at hunits
      exact roundDigits_of_unit hbase hunits
  rcases lt_trichotomy x 0 with hx | rfl | hx
  · have hneg := hpositive (-x) (neg_pos.mpr hx)
    rwa [roundDigits_neg, roundDigits_neg, neg_inj] at hneg
  · rw [roundDigits_zero, roundDigits_zero]
  · exact hpositive x hx

/-- Of two positive numbers the larger one is rounded to no less: both with one unit, or with a
power of the base between them. -/
theorem roundDigits_le_of_pos (hbase : 1 < base) (hdigits : 0 < digits) {x y : ℚ} (hx : 0 < x)
    (h : x ≤ y) : roundDigits base digits x ≤ roundDigits base digits y := by
  have hb : (1 : ℚ) ≤ base := by exact_mod_cast hbase.le
  have hy : 0 < y := hx.trans_le h
  rcases (Int.log_mono_right (b := base) hx h).eq_or_lt with hlog | hlog
  · unfold roundDigits
    rw [if_neg hx.ne', if_neg hy.ne', abs_of_pos hx, abs_of_pos hy, hlog]
    dsimp only
    have hunit : (0 : ℚ) < (base : ℚ) ^ (Int.log base y + 1 - digits) := zpow_pos (by positivity) _
    refine mul_le_mul_of_nonneg_right ?_ hunit.le
    exact_mod_cast roundHalfEven_mono (div_le_div_of_nonneg_right h hunit.le)
  · calc roundDigits base digits x
        ≤ (base : ℚ) ^ (Int.log base x + 1) := (roundDigits_between hbase hdigits hx).2
      _ ≤ (base : ℚ) ^ Int.log base y := zpow_le_zpow_right₀ hb hlog
      _ ≤ roundDigits base digits y := (roundDigits_between hbase hdigits hy).1

theorem roundDigits_mono (hbase : 1 < base) (hdigits : 0 < digits) :
    Monotone (roundDigits base digits) := by
  intro x y h
  rcases lt_trichotomy x 0 with hx | rfl | hx
  · rcases lt_or_ge y 0 with hy | hy
    · have hneg := roundDigits_le_of_pos hbase hdigits (neg_pos.mpr hy) (neg_le_neg h)
      rwa [roundDigits_neg, roundDigits_neg, neg_le_neg_iff] at hneg
    · have hlow := roundDigits_pos hbase hdigits (neg_pos.mpr hx)
      rw [roundDigits_neg] at hlow
      refine (neg_pos.mp hlow).le.trans ?_
      rcases hy.eq_or_lt with rfl | hy
      · rw [roundDigits_zero]
      · exact (roundDigits_pos hbase hdigits hy).le
  · rw [roundDigits_zero]
    rcases h.eq_or_lt with rfl | hy
    · rw [roundDigits_zero]
    · exact (roundDigits_pos hbase hdigits hy).le
  · exact roundDigits_le_of_pos hbase hdigits hx h

/-- The error is at most half of the last digit of the number. -/
theorem abs_roundDigits_sub_le (hbase : 1 < base) (hdigits : 0 < digits) (x : ℚ) :
    |roundDigits base digits x - x| ≤ |x| / (2 * base ^ (digits - 1) : ℕ) := by
  have hb : (0 : ℚ) < base := by positivity
  by_cases hzero : x = 0
  · simp [hzero]
  have hx : 0 < |x| := abs_pos.mpr hzero
  have hunit : (0 : ℚ) < (base : ℚ) ^ (Int.log base |x| + 1 - digits) := zpow_pos hb _
  have hlow : (base : ℚ) ^ Int.log base |x| ≤ |x| := Int.zpow_log_le_self hbase hx
  have hscale : (base : ℚ) ^ Int.log base |x| =
      (base : ℚ) ^ (Int.log base |x| + 1 - digits) * (base : ℚ) ^ (digits - 1) := by
    rw [← zpow_natCast, ← zpow_add₀ hb.ne']
    congr 1
    omega
  unfold roundDigits
  rw [if_neg hzero]
  dsimp only
  have herror := abs_roundHalfEven_sub_le (x / (base : ℚ) ^ (Int.log base |x| + 1 - digits))
  have hfactor : roundHalfEven (x / (base : ℚ) ^ (Int.log base |x| + 1 - digits)) *
        (base : ℚ) ^ (Int.log base |x| + 1 - digits) - x =
      (roundHalfEven (x / (base : ℚ) ^ (Int.log base |x| + 1 - digits)) -
        x / (base : ℚ) ^ (Int.log base |x| + 1 - digits)) *
        (base : ℚ) ^ (Int.log base |x| + 1 - digits) := by
    rw [sub_mul, div_mul_cancel₀ _ hunit.ne']
  rw [hfactor, abs_mul, abs_of_pos hunit, le_div_iff₀ (by positivity)]
  push_cast
  calc |(roundHalfEven (x / (base : ℚ) ^ (Int.log base |x| + 1 - digits)) : ℚ) -
          x / (base : ℚ) ^ (Int.log base |x| + 1 - digits)| *
        (base : ℚ) ^ (Int.log base |x| + 1 - digits) * (2 * (base : ℚ) ^ (digits - 1))
      ≤ 1 / 2 * (base : ℚ) ^ (Int.log base |x| + 1 - digits) * (2 * (base : ℚ) ^ (digits - 1)) := by
        gcongr
    _ = (base : ℚ) ^ Int.log base |x| := by
        rw [hscale]
        ring
    _ ≤ |x| := hlow

end

/-- A way to round the results of a calculation: it keeps their order and their signs, is off by
less than a thousandth and leaves what has been rounded. -/
structure Rounding where
  round : ℚ → ℚ
  mono : Monotone round
  idem : ∀ x, round (round x) = round x
  neg : ∀ x, round (-x) = -round x
  near : ∀ x, |round x - x| ≤ |x| / 1024
  one : round 1 = 1

namespace Rounding

instance : CoeFun Rounding fun _ => ℚ → ℚ := ⟨round⟩

/-- Exact arithmetic. -/
def exact : Rounding where
  round x := x
  mono := monotone_id
  idem _ := rfl
  neg _ := rfl
  near x := by
    rw [sub_self, abs_zero]
    positivity
  one := rfl

@[simp] theorem exact_apply (x : ℚ) : exact x = x := rfl

/-- Arithmetic with a fixed number of digits. -/
def ofDigits (base digits : ℕ) (hbase : 1 < base) (hdigits : 0 < digits)
    (hnear : 1024 ≤ 2 * base ^ (digits - 1)) : Rounding where
  round := roundDigits base digits
  mono := roundDigits_mono hbase hdigits
  idem := roundDigits_roundDigits hbase hdigits
  neg := roundDigits_neg
  near x := by
    refine (abs_roundDigits_sub_le hbase hdigits x).trans ?_
    gcongr
    exact_mod_cast hnear
  one := by simpa using roundDigits_pow hbase hdigits 0

variable (r : Rounding)

/- The operations, on operands that are rounded first. -/

def add (x y : ℚ) : ℚ := r (r x + r y)

def sub (x y : ℚ) : ℚ := r (r x - r y)

def mul (x y : ℚ) : ℚ := r (r x * r y)

def div (x y : ℚ) : ℚ := r (r x / r y)

/-- What an addition rounds off, as the smaller operand tells. -/
def lost (x y : ℚ) : ℚ :=
  if |y| ≤ |x| then r (r (x - r (x + y)) + y) else r (r (y - r (x + y)) + x)

/-- A sum so far, and what the additions have rounded off of it. -/
def sumStep (sum : ℚ × ℚ) (x : ℚ) : ℚ × ℚ := (r (sum.1 + x), r (sum.2 + r.lost sum.1 x))

/-- The sum of a list, compensated for the rounding of its additions. -/
def sum (l : List ℚ) : ℚ :=
  let sum := (l.map r).foldl r.sumStep (0, 0)
  r (sum.1 + sum.2)

@[simp] theorem exact_add (x y : ℚ) : exact.add x y = x + y := rfl

@[simp] theorem exact_sub (x y : ℚ) : exact.sub x y = x - y := rfl

@[simp] theorem exact_mul (x y : ℚ) : exact.mul x y = x * y := rfl

@[simp] theorem exact_div (x y : ℚ) : exact.div x y = x / y := rfl

/-- Where nothing is rounded there is nothing to compensate. -/
@[simp] theorem exact_sum (l : List ℚ) : exact.sum l = l.sum := by
  have hlost : ∀ x y : ℚ, exact.lost x y = 0 := by
    intro x y
    unfold lost
    simp only [exact_apply]
    split <;> ring
  have hfold : ∀ sum : ℚ × ℚ, l.foldl exact.sumStep sum = (sum.1 + l.sum, sum.2) := by
    induction l with
    | nil =>
      intro sum
      simp
    | cons x l ih =>
      intro sum
      rw [List.foldl_cons, ih, sumStep, hlost, List.sum_cons]
      simp only [exact_apply, add_zero, add_assoc]
  have hround : l.map exact = l := List.map_id l
  unfold sum
  rw [hround, hfold]
  simp only [exact_apply, zero_add, add_zero]

@[simp] theorem zero : r 0 = 0 := by
  have h := r.neg 0
  rw [neg_zero] at h
  linarith

theorem nonneg {x : ℚ} (h : 0 ≤ x) : 0 ≤ r x := by
  have hmono := r.mono h
  rwa [r.zero] at hmono

theorem pos {x : ℚ} (h : 0 < x) : 0 < r x := by
  have hnear := (abs_le.mp (r.near x)).1
  rw [abs_of_pos h] at hnear
  linarith

theorem apply_le_apply {x y : ℚ} (h : r x ≤ y) : r x ≤ r y := (r.idem x).symm.trans_le (r.mono h)

theorem apply_le_of_le {x y : ℚ} (h : x ≤ r y) : r x ≤ r y := (r.mono h).trans_eq (r.idem y)

theorem le_one {x : ℚ} (h : x ≤ 1) : r x ≤ 1 := by
  have hmono := r.mono h
  rwa [r.one] at hmono

theorem eq_zero_iff {x : ℚ} : r x = 0 ↔ x = 0 := by
  constructor
  · intro h
    rcases lt_trichotomy x 0 with hx | hx | hx
    · have hpos := r.pos (neg_pos.mpr hx)
      rw [r.neg, h] at hpos
      exact absurd hpos (by simp)
    · exact hx
    · exact absurd h (r.pos hx).ne'
  · rintro rfl
    exact r.zero

theorem abs_apply (x : ℚ) : |r x| = r |x| := by
  rcases le_total 0 x with h | h
  · rw [abs_of_nonneg h, abs_of_nonneg (r.nonneg h)]
  · have hneg := r.nonneg (neg_nonneg.mpr h)
    rw [abs_of_nonpos h, r.neg, abs_of_nonpos (by rwa [r.neg, neg_nonneg] at hneg)]

theorem abs_apply_le (x : ℚ) : |r x| ≤ 2 * |x| := by
  have hnear := r.near x
  have hsplit := abs_sub_abs_le_abs_sub (r x) x
  have hx := abs_nonneg x
  linarith

section
variable {x y z w : ℚ}

theorem add_mono (hx : x ≤ z) (hy : y ≤ w) : r.add x y ≤ r.add z w :=
  r.mono (add_le_add (r.mono hx) (r.mono hy))

theorem sub_mono (hx : x ≤ z) (hy : w ≤ y) : r.sub x y ≤ r.sub z w :=
  r.mono (sub_le_sub (r.mono hx) (r.mono hy))

theorem mul_mono (hx : 0 ≤ x) (hy : 0 ≤ y) (hxz : x ≤ z) (hyw : y ≤ w) :
    r.mul x y ≤ r.mul z w :=
  r.mono (mul_le_mul (r.mono hxz) (r.mono hyw) (r.nonneg hy) (r.nonneg (hx.trans hxz)))

theorem mul_mono_left (hy : 0 ≤ y) (h : x ≤ z) : r.mul x y ≤ r.mul z y :=
  r.mono (mul_le_mul_of_nonneg_right (r.mono h) (r.nonneg hy))

theorem div_mono_left (hy : 0 ≤ y) (h : x ≤ z) : r.div x y ≤ r.div z y :=
  r.mono (div_le_div_of_nonneg_right (r.mono h) (r.nonneg hy))

theorem zero_le_add (hx : 0 ≤ x) (hy : 0 ≤ y) : 0 ≤ r.add x y :=
  r.nonneg (add_nonneg (r.nonneg hx) (r.nonneg hy))

theorem zero_le_mul (hx : 0 ≤ x) (hy : 0 ≤ y) : 0 ≤ r.mul x y :=
  r.nonneg (mul_nonneg (r.nonneg hx) (r.nonneg hy))

theorem zero_le_div (hx : 0 ≤ x) (hy : 0 ≤ y) : 0 ≤ r.div x y :=
  r.nonneg (div_nonneg (r.nonneg hx) (r.nonneg hy))

theorem zero_lt_add (hx : 0 < x) (hy : 0 < y) : 0 < r.add x y :=
  r.pos (add_pos (r.pos hx) (r.pos hy))

theorem zero_le_sub (h : r y ≤ r x) : 0 ≤ r.sub x y := r.nonneg (sub_nonneg.mpr h)

theorem zero_lt_sub (h : r y < r x) : 0 < r.sub x y := r.pos (sub_pos.mpr h)

theorem zero_lt_div (hx : 0 < x) (hy : 0 < y) : 0 < r.div x y :=
  r.pos (div_pos (r.pos hx) (r.pos hy))

theorem neg_div_left (x y : ℚ) : r.div (-x) y = -r.div x y := by
  rw [div, div, r.neg, neg_div, r.neg]

theorem lost_neg (x y : ℚ) : r.lost (-x) (-y) = -r.lost x y := by
  have htotal : r (-x + -y) = -r (x + y) := by rw [← neg_add, r.neg]
  have hpart : ∀ a b t : ℚ, r (r (-a - -t) + -b) = -r (r (a - t) + b) := by
    intro a b t
    rw [← neg_sub', r.neg, ← neg_add, r.neg]
  unfold lost
  rw [htotal, hpart, hpart]
  by_cases h : |y| ≤ |x|
  · rw [if_pos h, if_pos (by rwa [abs_neg, abs_neg])]
  · rw [if_neg h, if_neg (by rwa [abs_neg, abs_neg])]

theorem sumStep_neg (sum : ℚ × ℚ) (x : ℚ) : r.sumStep (-sum) (-x) = -r.sumStep sum x := by
  unfold sumStep
  rw [Prod.fst_neg, Prod.snd_neg, r.lost_neg, ← neg_add, ← neg_add, r.neg, r.neg, Prod.neg_mk]

theorem foldl_sumStep_neg (l : List ℚ) (sum : ℚ × ℚ) :
    (l.map Neg.neg).foldl r.sumStep (-sum) = -l.foldl r.sumStep sum := by
  induction l generalizing sum with
  | nil => rfl
  | cons x l ih => rw [List.map_cons, List.foldl_cons, r.sumStep_neg, ih, List.foldl_cons]

theorem sum_neg (l : List ℚ) : r.sum (l.map Neg.neg) = -r.sum l := by
  have hround : (l.map Neg.neg).map r = (l.map r).map Neg.neg := by
    rw [List.map_map, List.map_map]
    exact List.map_congr_left fun x _ => r.neg x
  have hfold := r.foldl_sumStep_neg (l.map r) (0, 0)
  rw [Prod.neg_mk, neg_zero] at hfold
  unfold sum
  rw [hround, hfold]
  dsimp only [Prod.fst_neg, Prod.snd_neg]
  rw [← neg_add, r.neg]

/-- What an addition rounds off is small next to the sum. -/
theorem abs_lost_le (hx : 0 ≤ x) (hy : 0 ≤ y) : |r.lost x y| ≤ 3 / 1024 * (x + y) := by
  have hpart : ∀ {a b : ℚ}, 0 ≤ a → 0 ≤ b →
      |r (r (a - r (a + b)) + b)| ≤ 3 / 1024 * (a + b) := by
    intro a b ha hb
    have htotal := r.near (a + b)
    rw [abs_of_nonneg (add_nonneg ha hb)] at htotal
    have hleft : |a - r (a + b)| ≤ 1025 / 1024 * (a + b) := by
      rw [abs_le] at htotal ⊢
      constructor <;> linarith
    have hfirst := r.near (a - r (a + b))
    have hrest : |r (a - r (a + b)) + b| ≤ 21 / 10240 * (a + b) := by
      rw [abs_le] at htotal hfirst ⊢
      constructor <;> linarith
    have hlast := abs_le.mp (r.near (r (a - r (a + b)) + b))
    have hbounds := abs_le.mp hrest
    rw [abs_le]
    constructor <;> linarith
  unfold lost
  split
  · exact hpart hx hy
  · rw [add_comm x y]
    exact hpart hy hx

/-- After `n` additions of numbers that are not negative: what is rounded off is still small. -/
def Compensated (n : ℕ) (sum : ℚ × ℚ) : Prop := 0 ≤ sum.1 ∧ |sum.2| ≤ n * (sum.1 / 256)

theorem sumStep_compensated {n : ℕ} {sum : ℚ × ℚ} (hn : n < 64) (hx : 0 ≤ x)
    (h : Compensated n sum) : Compensated (n + 1) (r.sumStep sum x) := by
  obtain ⟨hsum, hrest⟩ := h
  have hall : 0 ≤ sum.1 + x := add_nonneg hsum hx
  have hlost := r.abs_lost_le hsum hx
  have htotal := (abs_le.mp (r.near (sum.1 + x))).1
  rw [abs_of_nonneg hall] at htotal
  have hn' : (n : ℚ) ≤ 63 := by exact_mod_cast Nat.le_of_lt_succ hn
  have hfew : (n : ℚ) * (sum.1 + x) ≤ 63 * (sum.1 + x) := mul_le_mul_of_nonneg_right hn' hall
  have hgrown : (n : ℚ) * sum.1 ≤ n * (sum.1 + x) :=
    mul_le_mul_of_nonneg_left (by linarith) (Nat.cast_nonneg n)
  have hkept : (n : ℚ) * (1023 / 1024 * (sum.1 + x)) ≤ n * r (sum.1 + x) :=
    mul_le_mul_of_nonneg_left (by linarith) (Nat.cast_nonneg n)
  have hboth : |sum.2 + r.lost sum.1 x| ≤ n * (sum.1 + x) / 256 + 3 / 1024 * (sum.1 + x) := by
    have hadd := abs_add_le sum.2 (r.lost sum.1 x)
    linarith
  have hround := (abs_sub_abs_le_abs_sub _ _).trans (r.near (sum.2 + r.lost sum.1 x))
  refine ⟨r.nonneg hall, ?_⟩
  unfold sumStep
  dsimp only
  push_cast
  linarith

theorem foldl_sumStep_compensated (l : List ℚ) {n : ℕ} {sum : ℚ × ℚ} (hn : n + l.length ≤ 64)
    (hl : ∀ x ∈ l, 0 ≤ x) (h : Compensated n sum) :
    Compensated (n + l.length) (l.foldl r.sumStep sum) := by
  induction l generalizing n sum with
  | nil => exact h
  | cons x l ih =>
    rw [List.length_cons] at hn ⊢
    rw [add_comm l.length, ← add_assoc] at hn ⊢
    have hstep := r.sumStep_compensated (by omega) (hl x List.mem_cons_self) h
    exact ih hn (fun y hy => hl y (List.mem_cons_of_mem x hy)) hstep

/-- The compensation takes no short sum below zero. -/
theorem zero_le_sum (l : List ℚ) (hn : l.length ≤ 64) (hl : ∀ x ∈ l, 0 ≤ x) : 0 ≤ r.sum l := by
  have hround : ∀ x ∈ l.map r, 0 ≤ x := by
    intro x hx
    obtain ⟨y, hy, rfl⟩ := List.mem_map.mp hx
    exact r.nonneg (hl y hy)
  have hstart : Compensated 0 ((0, 0) : ℚ × ℚ) := by
    refine ⟨le_rfl, ?_⟩
    simp
  have hn' : 0 + (l.map r).length ≤ 64 := by simpa using hn
  obtain ⟨hsum, hrest⟩ := r.foldl_sumStep_compensated (l.map r) hn' hround hstart
  refine r.nonneg ?_
  have hlength : ((0 + (l.map r).length : ℕ) : ℚ) ≤ 64 := by exact_mod_cast hn'
  have hfew := mul_le_mul_of_nonneg_right hlength (div_nonneg hsum (by norm_num : (0 : ℚ) ≤ 256))
  have hlow := (abs_le.mp hrest).1
  linarith

end

end Rounding

end Lib
