import Mathlib.Data.Rat.Floor
import Mathlib.Tactic.Linarith
import Mathlib.Tactic.Positivity

namespace Lib

/-- Nearest integer, ties to the even neighbour. -/
def roundHalfEven (x : ℚ) : ℤ :=
  let f := ⌊x⌋
  if x - f < 1 / 2 then f
  else if 1 / 2 < x - f then f + 1
  else if f % 2 = 0 then f else f + 1

/-- Nearest integer, ties away from zero. -/
def roundHalfAway (x : ℚ) : ℤ := if 0 ≤ x then ⌊x + 1 / 2⌋ else ⌈x - 1 / 2⌉

/-- Toward zero. -/
def roundDown (x : ℚ) : ℤ := if 0 ≤ x then ⌊x⌋ else ⌈x⌉

/-- Away from zero. -/
def roundUp (x : ℚ) : ℤ := if 0 ≤ x then ⌈x⌉ else ⌊x⌋

/-- A decimal with `places` fractional digits, rounded to an integer multiple of
the last one by `mode`. -/
def quantizeWith (mode : ℚ → ℤ) (places : ℕ) (x : ℚ) : ℚ :=
  mode (x * 10 ^ places) / 10 ^ places

/-- A number with no more than `places` fractional digits. -/
def IsDecimal (places : ℕ) (x : ℚ) : Prop := ∃ n : ℤ, x = n / 10 ^ places

theorem quantizeWith_isDecimal : IsDecimal places (quantizeWith mode places x) := ⟨_, rfl⟩

/-- A mode that leaves the integers alone leaves just the short decimals alone. -/
theorem quantizeWith_eq_self_iff (hm : ∀ n : ℤ, mode n = n) :
    quantizeWith mode places x = x ↔ IsDecimal places x := by
  refine ⟨fun h => ⟨_, h.symm⟩, ?_⟩
  rintro ⟨n, rfl⟩
  have hpos : (10 : ℚ) ^ places ≠ 0 := by positivity
  rw [quantizeWith, div_mul_cancel₀ _ hpos, hm]

theorem roundHalfEven_intCast (n : ℤ) : roundHalfEven n = n := by simp [roundHalfEven]

theorem roundHalfAway_intCast (n : ℤ) : roundHalfAway n = n := by
  have hdown : ⌊(n : ℚ) + 1 / 2⌋ = n := by
    rw [Int.floor_eq_iff]
    constructor <;> linarith
  have hup : ⌈(n : ℚ) - 1 / 2⌉ = n := by
    rw [Int.ceil_eq_iff]
    constructor <;> linarith
  rw [roundHalfAway, hdown, hup, ite_self]

instance (places : ℕ) (x : ℚ) : Decidable (IsDecimal places x) :=
  decidable_of_iff _ (quantizeWith_eq_self_iff roundHalfAway_intCast)

theorem roundHalfAway_nonneg (h : 0 ≤ x) : 0 ≤ roundHalfAway x := by
  rw [roundHalfAway, if_pos h]
  exact Int.floor_nonneg.mpr (by linarith)

theorem roundDown_nonneg (h : 0 ≤ x) : 0 ≤ roundDown x := by
  rw [roundDown, if_pos h]
  exact Int.floor_nonneg.mpr h

theorem abs_roundDown_le (x : ℚ) : |(roundDown x : ℚ)| ≤ |x| := by
  unfold roundDown
  split
  · rename_i hx
    have hfloor : (0 : ℚ) ≤ (⌊x⌋ : ℤ) := by exact_mod_cast Int.floor_nonneg.mpr hx
    rw [abs_of_nonneg hx, abs_of_nonneg hfloor]
    exact Int.floor_le x
  · rename_i hx
    have hneg : x ≤ 0 := (not_le.mp hx).le
    have hceil : ((⌈x⌉ : ℤ) : ℚ) ≤ 0 := by exact_mod_cast Int.ceil_le.mpr (by exact_mod_cast hneg)
    rw [abs_of_nonpos hneg, abs_of_nonpos hceil]
    exact neg_le_neg (Int.le_ceil x)

theorem roundHalfEven_nonneg (h : 0 ≤ x) : 0 ≤ roundHalfEven x := by
  have hf : 0 ≤ ⌊x⌋ := Int.floor_nonneg.mpr h
  unfold roundHalfEven
  dsimp only
  split
  · exact hf
  · split
    · omega
    · split <;> omega

/-- Rounding does not cross an integer. -/
theorem roundHalfEven_le {x : ℚ} {n : ℤ} (h : x ≤ n) : roundHalfEven x ≤ n := by
  have hf : (⌊x⌋ : ℚ) ≤ x := Int.floor_le x
  have hle : ⌊x⌋ ≤ n := by exact_mod_cast hf.trans h
  have hlt : (⌊x⌋ : ℚ) < x → ⌊x⌋ + 1 ≤ n := by
    intro hx
    have hn : ⌊x⌋ < n := by exact_mod_cast hx.trans_le h
    omega
  unfold roundHalfEven
  dsimp only
  split
  · exact hle
  · rename_i hhalf
    have hnext := hlt (by linarith)
    split
    · exact hnext
    · split
      · exact hle
      · exact hnext

theorem roundHalfEven_near {x : ℚ} {k : ℤ} (h : |x - k| < 1 / 2) : roundHalfEven x = k := by
  obtain ⟨hlo, hhi⟩ := abs_lt.mp h
  unfold roundHalfEven
  dsimp only
  by_cases hk : (k : ℚ) ≤ x
  · have hf : ⌊x⌋ = k := Int.floor_eq_iff.mpr ⟨hk, by linarith⟩
    rw [hf, if_pos hhi]
  · have hf : ⌊x⌋ = k - 1 := by
      rw [Int.floor_eq_iff]
      push_cast
      exact ⟨by linarith, by linarith⟩
    rw [hf]
    push_cast
    rw [if_neg (by linarith), if_pos (by linarith)]
    omega

theorem roundHalfEven_half (k : ℤ) :
    roundHalfEven (k + 1 / 2) = if k % 2 = 0 then k else k + 1 := by
  have hf : ⌊(k : ℚ) + 1 / 2⌋ = k := by
    rw [Int.floor_eq_iff]
    exact ⟨by linarith, by linarith⟩
  unfold roundHalfEven
  dsimp only
  rw [hf, if_neg (by linarith), if_neg (by linarith)]

/-- Every number is near an integer, or half way between two. -/
theorem near_or_half (x : ℚ) : (∃ k : ℤ, |x - k| < 1 / 2) ∨ ∃ k : ℤ, x = k + 1 / 2 := by
  have hlo := Int.floor_le x
  have hhi := Int.lt_floor_add_one x
  rcases lt_trichotomy (x - ⌊x⌋) (1 / 2) with h | h | h
  · exact .inl ⟨⌊x⌋, abs_lt.mpr ⟨by linarith, h⟩⟩
  · exact .inr ⟨⌊x⌋, by linarith⟩
  · refine .inl ⟨⌊x⌋ + 1, abs_lt.mpr ?_⟩
    push_cast
    exact ⟨by linarith, by linarith⟩

theorem abs_roundHalfEven_sub_le (x : ℚ) : |(roundHalfEven x : ℚ) - x| ≤ 1 / 2 := by
  rcases near_or_half x with ⟨k, hk⟩ | ⟨k, rfl⟩
  · rw [roundHalfEven_near hk, abs_sub_comm]
    exact hk.le
  · rw [roundHalfEven_half, abs_le]
    split
    · constructor <;> linarith
    · push_cast
      constructor <;> linarith

/-- Decimals less than two units of the last digit apart are at most one apart. -/
theorem IsDecimal.abs_sub_le (hx : IsDecimal places x) (hy : IsDecimal places y)
    (h : |x - y| < 2 / 10 ^ places) : |x - y| ≤ 1 / 10 ^ places := by
  obtain ⟨n, rfl⟩ := hx
  obtain ⟨m, rfl⟩ := hy
  have hpos : (0 : ℚ) < 10 ^ places := by positivity
  rw [← sub_div, abs_div, abs_of_pos hpos] at h ⊢
  have hlt : |((n - m : ℤ) : ℚ)| < (2 : ℤ) := by
    push_cast
    exact (div_lt_div_iff_of_pos_right hpos).mp h
  rw [← Int.cast_abs] at hlt
  have hle : |n - m| ≤ 1 := Int.lt_add_one_iff.mp (by exact_mod_cast hlt)
  have hq : |((n - m : ℤ) : ℚ)| ≤ 1 := by exact_mod_cast hle
  push_cast at hq
  exact div_le_div_of_nonneg_right hq hpos.le

/-- Numbers that are rounded alike are at most one unit of the last digit apart. -/
theorem abs_sub_le_of_quantizeWith_eq
    (h : quantizeWith roundHalfEven places x = quantizeWith roundHalfEven places y) :
    |x - y| ≤ 1 / 10 ^ places := by
  have hpos : (0 : ℚ) < 10 ^ places := by positivity
  have hsame : (roundHalfEven (x * 10 ^ places) : ℚ) = roundHalfEven (y * 10 ^ places) :=
    (div_left_inj' hpos.ne').mp h
  have hx := abs_le.mp (abs_roundHalfEven_sub_le (x * 10 ^ places))
  have hy := abs_le.mp (abs_roundHalfEven_sub_le (y * 10 ^ places))
  rw [hsame] at hx
  have habs : |x - y| * 10 ^ places = |x * 10 ^ places - y * 10 ^ places| := by
    rw [← sub_mul, abs_mul, abs_of_pos hpos]
  rw [le_div_iff₀ hpos, habs, abs_le]
  constructor <;> linarith [hx.1, hx.2, hy.1, hy.2]

theorem half_not_near {k m : ℤ} (h : |((k : ℚ) + 1 / 2) - m| < 1 / 2) : False := by
  obtain ⟨hlo, hhi⟩ := abs_lt.mp h
  have hk : k < m := by
    have hq : (k : ℚ) < m := by linarith
    exact_mod_cast hq
  have hm : m < k + 1 := by
    have hq : (m : ℚ) < k + 1 := by linarith
    exact_mod_cast hq
  omega

/-- Two parts of an integer are rounded to parts of it again, unless it is odd and they are
half way between two integers. -/
theorem roundHalfEven_split_iff (n : ℤ) (x : ℚ) :
    roundHalfEven x + roundHalfEven (n - x) = n ↔ ¬(n % 2 = 1 ∧ ∃ k : ℤ, x = k + 1 / 2) := by
  rcases near_or_half x with ⟨k, hk⟩ | ⟨k, rfl⟩
  · have hother : |(n : ℚ) - x - (n - k : ℤ)| < 1 / 2 := by
      push_cast
      rw [show (n : ℚ) - x - (n - k) = -(x - k) by ring, abs_neg]
      exact hk
    rw [roundHalfEven_near hk, roundHalfEven_near hother]
    refine iff_of_true (by omega) ?_
    rintro ⟨-, m, rfl⟩
    exact half_not_near hk
  · have hother : (n : ℚ) - (k + 1 / 2) = (n - k - 1 : ℤ) + 1 / 2 := by
      push_cast
      ring
    rw [hother, roundHalfEven_half, roundHalfEven_half]
    constructor
    · rintro h ⟨hodd, -⟩
      split at h <;> split at h <;> omega
    · intro h
      have heven : ¬n % 2 = 1 := fun hodd => h ⟨hodd, k, rfl⟩
      split <;> split <;> omega

theorem roundHalfEven_lt_iff (x : ℚ) (n : ℤ) :
    roundHalfEven x < n ↔ x < n - 1 / 2 ∨ x = n - 1 / 2 ∧ n % 2 = 1 := by
  rcases near_or_half x with ⟨k, hk⟩ | ⟨k, rfl⟩
  · rw [roundHalfEven_near hk]
    obtain ⟨hlo, hhi⟩ := abs_lt.mp hk
    constructor
    · intro h
      have hq : (k : ℚ) + 1 ≤ n := by exact_mod_cast h
      exact .inl (by linarith)
    · rintro (h | ⟨rfl, -⟩)
      · have hq : (k : ℚ) < n := by linarith
        exact_mod_cast hq
      · exact (half_not_near (k := n - 1) (m := k) (by push_cast; convert hk using 2; ring)).elim
  · rw [roundHalfEven_half]
    have hlt : (k : ℚ) + 1 / 2 < n - 1 / 2 ↔ k + 1 < n := by
      rw [← Int.cast_lt (R := ℚ)]
      push_cast
      constructor <;> intro h <;> linarith
    have heq : (k : ℚ) + 1 / 2 = n - 1 / 2 ↔ k + 1 = n := by
      rw [← Int.cast_inj (α := ℚ)]
      push_cast
      constructor <;> intro h <;> linarith
    rw [hlt, heq]
    split <;> omega

theorem abs_half_eq_iff (k n : ℤ) : |(k : ℚ) + 1 / 2 - n| = 1 / 2 ↔ n = k ∨ n = k + 1 := by
  rw [abs_eq (by norm_num), ← Int.cast_inj (α := ℚ), ← Int.cast_inj (α := ℚ)]
  push_cast
  refine or_congr ?_ ?_
  · constructor <;> intro h <;> linarith
  · constructor <;> intro h <;> linarith

theorem roundHalfEven_eq_iff (x : ℚ) (n : ℤ) :
    roundHalfEven x = n ↔ |x - n| < 1 / 2 ∨ |x - n| = 1 / 2 ∧ n % 2 = 0 := by
  rcases near_or_half x with ⟨k, hk⟩ | ⟨k, rfl⟩
  · rw [roundHalfEven_near hk]
    constructor
    · rintro rfl
      exact .inl hk
    · intro h
      have hle : |x - n| ≤ 1 / 2 := h.elim le_of_lt fun h => h.1.le
      have hway : |(k : ℚ) - n| < 1 := by
        have htriangle := abs_sub_le (k : ℚ) x n
        rw [abs_sub_comm (k : ℚ) x] at htriangle
        linarith
      have hzero : |k - n| < 1 := by exact_mod_cast hway
      exact sub_eq_zero.mp (Int.abs_lt_one_iff.mp hzero)
  · rw [roundHalfEven_half, abs_half_eq_iff, or_iff_right half_not_near]
    split <;> omega

theorem le_roundHalfEven {x : ℚ} {n : ℤ} (h : n ≤ x) : n ≤ roundHalfEven x := by
  refine le_of_not_gt fun hlt => ?_
  rcases (roundHalfEven_lt_iff x n).mp hlt with hx | ⟨hx, -⟩ <;> linarith

theorem IsDecimal.zero : IsDecimal places 0 := ⟨0, by simp⟩

theorem IsDecimal.add (hx : IsDecimal places x) (hy : IsDecimal places y) :
    IsDecimal places (x + y) := by
  obtain ⟨n, rfl⟩ := hx
  obtain ⟨m, rfl⟩ := hy
  exact ⟨n + m, by push_cast; ring⟩

theorem IsDecimal.neg (hx : IsDecimal places x) : IsDecimal places (-x) := by
  obtain ⟨n, rfl⟩ := hx
  exact ⟨-n, by push_cast; ring⟩

theorem IsDecimal.sub (hx : IsDecimal places x) (hy : IsDecimal places y) :
    IsDecimal places (x - y) := by
  rw [sub_eq_add_neg]
  exact hx.add hy.neg

theorem IsDecimal.sum {l : List ℚ} (h : ∀ x ∈ l, IsDecimal places x) : IsDecimal places l.sum := by
  induction l with
  | nil => exact .zero
  | cons x l ih =>
    rw [List.sum_cons]
    exact (h x List.mem_cons_self).add (ih fun y hy => h y (List.mem_cons_of_mem x hy))

/-- An odd number of units of the last digit. -/
def IsOdd (places : ℕ) (x : ℚ) : Prop := ∃ n : ℤ, x * 10 ^ places = n ∧ n % 2 = 1

/-- Half way between two decimals. -/
def IsTie (places : ℕ) (x : ℚ) : Prop := ∃ k : ℤ, x * 10 ^ places = k + 1 / 2

instance (places : ℕ) (x : ℚ) : Decidable (IsOdd places x) :=
  decidable_of_iff (x * 10 ^ places = ⌊x * 10 ^ places⌋ ∧ ⌊x * 10 ^ places⌋ % 2 = 1) <| by
    constructor
    · intro h
      exact ⟨_, h⟩
    · rintro ⟨n, hn, hodd⟩
      rw [hn, Int.floor_intCast]
      exact ⟨rfl, hodd⟩

instance (places : ℕ) (x : ℚ) : Decidable (IsTie places x) :=
  decidable_of_iff (x * 10 ^ places = ⌊x * 10 ^ places⌋ + 1 / 2) <| by
    constructor
    · intro h
      exact ⟨_, h⟩
    · rintro ⟨k, hk⟩
      have hfloor : ⌊(k : ℚ) + 1 / 2⌋ = k := by
        rw [Int.floor_eq_iff]
        exact ⟨by linarith, by linarith⟩
      rw [hk, hfloor]

/-- A decimal that no other one is nearer to. Of two it is the even one. -/
def IsNearest (places : ℕ) (x y : ℚ) : Prop :=
  IsDecimal places y ∧
    (|x - y| * 10 ^ places < 1 / 2 ∨ |x - y| * 10 ^ places = 1 / 2 ∧ ¬IsOdd places y)

theorem isOdd_intCast_div {n : ℤ} : IsOdd places ((n : ℚ) / 10 ^ places) ↔ n % 2 = 1 := by
  have hpos : (10 : ℚ) ^ places ≠ 0 := by positivity
  unfold IsOdd
  rw [div_mul_cancel₀ _ hpos]
  constructor
  · rintro ⟨m, hm, hodd⟩
    rwa [Int.cast_inj.mp hm]
  · intro hodd
    exact ⟨n, rfl, hodd⟩

theorem quantizeWith_eq_iff (x y : ℚ) :
    quantizeWith roundHalfEven places x = y ↔ IsNearest places x y := by
  have hpos : (0 : ℚ) < 10 ^ places := by positivity
  have hunits : ∀ n : ℤ, |x - n / 10 ^ places| * 10 ^ places = |x * 10 ^ places - n| := by
    intro n
    rw [← abs_of_pos hpos, ← abs_mul, abs_of_pos hpos, sub_mul, div_mul_cancel₀ _ hpos.ne']
  constructor
  · rintro rfl
    refine ⟨quantizeWith_isDecimal, ?_⟩
    rw [quantizeWith, hunits, isOdd_intCast_div, Int.emod_two_ne_one]
    exact (roundHalfEven_eq_iff _ _).mp rfl
  · rintro ⟨⟨n, rfl⟩, h⟩
    rw [hunits, isOdd_intCast_div, Int.emod_two_ne_one] at h
    rw [quantizeWith, (roundHalfEven_eq_iff _ n).mpr h]

/-- The rounded parts of a decimal add up to it, unless it is odd and its parts are ties. -/
theorem quantizeWith_split_iff (hd : IsDecimal places v) (part : ℚ) :
    quantizeWith roundHalfEven places part + quantizeWith roundHalfEven places (v - part) = v ↔
      ¬(IsOdd places v ∧ IsTie places part) := by
  obtain ⟨n, rfl⟩ := hd
  have hpos : (10 : ℚ) ^ places ≠ 0 := by positivity
  have hrest : ((n : ℚ) / 10 ^ places - part) * 10 ^ places = n - part * 10 ^ places := by
    rw [sub_mul, div_mul_cancel₀ _ hpos]
  have hsplit := roundHalfEven_split_iff n (part * 10 ^ places)
  rw [← Int.cast_inj (α := ℚ), Int.cast_add] at hsplit
  rw [quantizeWith, quantizeWith, hrest, ← add_div, div_left_inj' hpos, hsplit,
    isOdd_intCast_div, IsTie]

/-- A part of a decimal is rounded to less than the whole just when it leaves more than half a
unit of the last digit, or leaves half a unit of an odd number of them. -/
theorem quantizeWith_lt_iff (hd : IsDecimal places v) (part : ℚ) :
    quantizeWith roundHalfEven places part < v ↔
      1 / 2 < (v - part) * 10 ^ places ∨
        (v - part) * 10 ^ places = 1 / 2 ∧ IsOdd places v := by
  obtain ⟨n, rfl⟩ := hd
  have hpos : (0 : ℚ) < 10 ^ places := by positivity
  have hrest : ((n : ℚ) / 10 ^ places - part) * 10 ^ places = n - part * 10 ^ places := by
    rw [sub_mul, div_mul_cancel₀ _ hpos.ne']
  rw [quantizeWith, div_lt_div_iff_of_pos_right hpos, Int.cast_lt, roundHalfEven_lt_iff, hrest,
    isOdd_intCast_div]
  refine or_congr ?_ (and_congr_left' ?_)
  · constructor <;> intro h <;> linarith
  · constructor <;> intro h <;> linarith

/-- Rounding reaches above a decimal from more than half a unit above it, and from a tie above an
odd one. -/
theorem quantizeWith_le_iff (x : ℚ) (n : ℤ) :
    quantizeWith roundHalfEven places x ≤ n / 10 ^ places ↔
      x * 10 ^ places - n < 1 / 2 ∨ x * 10 ^ places - n = 1 / 2 ∧ n % 2 = 0 := by
  have hpos : (0 : ℚ) < 10 ^ places := by positivity
  have hup : roundHalfEven (x * 10 ^ places) ≤ n ↔ roundHalfEven (x * 10 ^ places) < n + 1 :=
    Int.lt_add_one_iff.symm
  rw [quantizeWith, div_le_div_iff_of_pos_right hpos, Int.cast_le, hup, roundHalfEven_lt_iff]
  push_cast
  refine or_congr ?_ (and_congr ?_ ?_)
  · constructor <;> intro h <;> linarith
  · constructor <;> intro h <;> linarith
  · omega

theorem quantizeWith_nonneg (hm : ∀ y : ℚ, 0 ≤ y → 0 ≤ mode y) (h : 0 ≤ x) :
    0 ≤ quantizeWith mode places x := by
  have hx : 0 ≤ x * 10 ^ places := by positivity
  have hi : (0 : ℚ) ≤ mode (x * 10 ^ places) := by exact_mod_cast hm _ hx
  exact div_nonneg hi (by positivity)

theorem quantizeWith_le (hm : ∀ (y : ℚ) (n : ℤ), y ≤ n → mode y ≤ n) (hd : IsDecimal places y)
    (h : x ≤ y) : quantizeWith mode places x ≤ y := by
  obtain ⟨n, rfl⟩ := hd
  have hpos : (0 : ℚ) < 10 ^ places := by positivity
  have hx : x * 10 ^ places ≤ n := (le_div_iff₀ hpos).mp h
  have hi : ((mode (x * 10 ^ places) : ℤ) : ℚ) ≤ n := by exact_mod_cast hm _ _ hx
  exact div_le_div_of_nonneg_right hi hpos.le

theorem quantizeWith_le_one (hm : ∀ (y : ℚ) (n : ℤ), y ≤ n → mode y ≤ n) (h : x ≤ 1) :
    quantizeWith mode places x ≤ 1 := by
  have hpos : (10 : ℚ) ^ places ≠ 0 := by positivity
  have hone : IsDecimal places 1 := ⟨10 ^ places, by push_cast; rw [div_self hpos]⟩
  exact quantizeWith_le hm hone h

theorem quantizeWith_mono {mode : ℚ → ℤ} (hm : ∀ a b : ℚ, a ≤ b → mode a ≤ mode b) (h : x ≤ y) :
    quantizeWith mode places x ≤ quantizeWith mode places y := by
  have hpos : (0 : ℚ) < 10 ^ places := by positivity
  have hi : ((mode (x * 10 ^ places) : ℤ) : ℚ) ≤ mode (y * 10 ^ places) := by
    exact_mod_cast hm _ _ (mul_le_mul_of_nonneg_right h hpos.le)
  exact div_le_div_of_nonneg_right hi hpos.le

theorem quantizeWith_floor_le (places : ℕ) (x : ℚ) : quantizeWith Int.floor places x ≤ x := by
  have hpos : (0 : ℚ) < 10 ^ places := by positivity
  rw [quantizeWith, div_le_iff₀ hpos]
  exact Int.floor_le _

/-- A cost that is rounded up is covered. -/
theorem le_quantizeWith_roundUp (places : ℕ) (h : 0 ≤ x) : x ≤ quantizeWith roundUp places x := by
  have hpos : (0 : ℚ) < 10 ^ places := by positivity
  have hx : 0 ≤ x * 10 ^ places := by positivity
  rw [quantizeWith, roundUp, if_pos hx, le_div_iff₀ hpos]
  exact Int.le_ceil _

/-- What is rounded down is within a bound just when it is within the bound rounded down. -/
theorem quantizeWith_roundDown_le_iff (hx : 0 ≤ x) (hy : 0 ≤ y) :
    quantizeWith roundDown places x ≤ y ↔
      quantizeWith roundDown places x ≤ quantizeWith roundDown places y := by
  have hpos : (0 : ℚ) < 10 ^ places := by positivity
  have hx' : 0 ≤ x * 10 ^ places := by positivity
  have hy' : 0 ≤ y * 10 ^ places := by positivity
  unfold quantizeWith roundDown
  rw [if_pos hx', if_pos hy', div_le_div_iff_of_pos_right hpos, div_le_iff₀ hpos]
  norm_cast
  exact Int.le_floor.symm

end Lib
