import FuturesBot.Core.Arithmetic
import FuturesBot.Lib.Reading

namespace FuturesBot
open Lib

/-- A finite `Decimal` as it is written: equal ones may be written differently. -/
structure Decimal where
  negative : Bool := false
  coefficient : ℕ
  exponent : ℤ := 0
  deriving DecidableEq, Repr

namespace Decimal

def value (d : Decimal) : ℚ :=
  (if d.negative then -d.coefficient else d.coefficient : ℚ) * 10 ^ d.exponent

/-- Every result of a calculation has 28 significant digits at most. -/
def roundContext (x : ℚ) : ℚ := Arithmetic.python.decimal x

theorem abs_roundContext_sub_le (x : ℚ) : |roundContext x - x| ≤ |x| / (2 * 10 ^ 27) := by
  exact_mod_cast abs_roundDigits_sub_le (show 1 < 10 by decide) (show 0 < 28 by decide) x

def signText (negative : Bool) : List Char := if negative then ['-'] else []

/-- An exponent is written with its sign, unless it is zero. -/
def scaleText (e : ℤ) : List Char :=
  if e = 0 then [] else 'E' :: (if e < 0 then '-' else '+') :: Nat.toDigits 10 e.natAbs

/-- The digits before and after the point, which may stand before all of them. -/
def parts (digits : List Char) (dotPlace : ℤ) : List Char × List Char :=
  if dotPlace ≤ 0 then (['0'], List.replicate (-dotPlace).toNat '0' ++ digits)
  else if digits.length ≤ dotPlace then
    (digits ++ List.replicate (dotPlace - digits.length).toNat '0', [])
  else (digits.take dotPlace.toNat, digits.drop dotPlace.toNat)

def fractionText (frac : List Char) : List Char := if frac = [] then [] else '.' :: frac

/-- Numbers that are not large and not very small are written without an exponent. -/
def dotPlace (d : Decimal) (leftDigits : ℤ) : ℤ :=
  if d.exponent ≤ 0 ∧ -6 < leftDigits then leftDigits else 1

def str (d : Decimal) : String :=
  let digits := Nat.toDigits 10 d.coefficient
  let leftDigits := d.exponent + digits.length
  let dotPlace := d.dotPlace leftDigits
  let (int, frac) := parts digits dotPlace
  String.ofList (signText d.negative ++
    (int ++ (fractionText frac ++ scaleText (leftDigits - dotPlace))))

/-- An optional sign. -/
def readSign : Reader Bool
  | [] => some (false, [])
  | c :: rest =>
    if c = '-' then some (true, rest)
    else if c = '+' then some (false, rest)
    else some (false, c :: rest)

def readExponent : Reader ℤ := do
  let negative ← readSign
  let digits ← Reader.digits
  if digits = [] then Reader.fail
  else pure ((if negative then -1 else 1) * (Nat.ofDigitChars 10 digits 0 : ℤ))

/-- The numbers that `Decimal` reads, in plain digits. -/
def read : Reader Decimal := do
  let negative ← readSign
  let int ← Reader.digits
  let frac ← Reader.afterMark (· = '.') Reader.digits
  if int = [] ∧ frac.getD [] = [] then Reader.fail
  else do
    let exp ← Reader.afterMark (fun c => c = 'E' ∨ c = 'e') readExponent
    pure
      { negative := negative
        coefficient := Nat.ofDigitChars 10 (int ++ frac.getD []) 0
        exponent := exp.getD 0 - (frac.getD []).length }

def ofText (text : String) : Option Decimal := read.run text

theorem reads_sign {rest : List Char} (negative : Bool)
    (hrest : ∀ c ∈ rest.head?, c ≠ '-' ∧ c ≠ '+') :
    Reads readSign (signText negative) negative rest := by
  cases negative with
  | true => rfl
  | false =>
    cases rest with
    | nil => rfl
    | cons c rest =>
      obtain ⟨hminus, hplus⟩ := hrest c rfl
      change readSign (c :: rest) = _
      rw [readSign, if_neg hminus, if_neg hplus]

theorem isDigit_toDigits (n : ℕ) : ∀ c ∈ Nat.toDigits 10 n, c.isDigit :=
  fun _ hc => Nat.isDigit_of_mem_toDigits (by decide) (by decide) hc

theorem reads_scale {rest : List Char} (hrest : ∀ c ∈ rest.head?, ¬c.isDigit ∧ c ≠ 'E' ∧ c ≠ 'e')
    (e : ℤ) : ∃ found : Option ℤ, found.getD 0 = e ∧
      Reads (Reader.afterMark (fun c => c = 'E' ∨ c = 'e') readExponent) (scaleText e) found
        rest := by
  unfold scaleText
  split
  · rename_i hzero
    refine ⟨none, hzero.symm, .afterMark_none fun c hc => ?_⟩
    simpa using (hrest c hc).2
  · have hdigits : Reads Reader.digits (Nat.toDigits 10 e.natAbs) (Nat.toDigits 10 e.natAbs) rest :=
      .digits (isDigit_toDigits _) fun c hc => (hrest c hc).1
    have hsign : ∀ rest', Reads readSign [if e < 0 then '-' else '+'] (decide (e < 0)) rest' := by
      intro rest'
      by_cases he : e < 0
      · rw [if_pos he, decide_eq_true he]
        rfl
      · rw [if_neg he, decide_eq_false he]
        rfl
    have hvalue : (if decide (e < 0) then -1 else 1) * (e.natAbs : ℤ) = e := by
      by_cases he : e < 0
      · rw [decide_eq_true he, if_pos rfl]
        omega
      · rw [decide_eq_false he, if_neg Bool.false_ne_true]
        omega
    refine ⟨some e, rfl, .afterMark_some (by decide) (.bind (hsign _) (.last hdigits ?_))⟩
    rw [if_neg Nat.toDigits_ne_nil, Nat.ofDigitChars_ten_toDigits, hvalue]
    exact .pure e

theorem parts_spec {digits : List Char} {place : ℤ} (hdigits : ∀ c ∈ digits, c.isDigit)
    (hne : digits ≠ []) (hplace : place ≤ digits.length) :
    (∀ c ∈ (parts digits place).1, c.isDigit) ∧ (∀ c ∈ (parts digits place).2, c.isDigit) ∧
    (parts digits place).1 ≠ [] ∧
    Nat.ofDigitChars 10 ((parts digits place).1 ++ (parts digits place).2) 0 =
      Nat.ofDigitChars 10 digits 0 ∧
    ((parts digits place).2.length : ℤ) = digits.length - place := by
  have hzeros : ∀ n, ∀ c ∈ List.replicate n '0', c.isDigit := by
    intro n c hc
    rw [List.eq_of_mem_replicate hc]
    rfl
  unfold parts
  by_cases hlow : place ≤ 0
  · rw [if_pos hlow]
    refine ⟨?_, ?_, by simp, ?_, ?_⟩
    · intro c hc
      rw [List.mem_singleton.mp hc]
      rfl
    · intro c hc
      rcases List.mem_append.mp hc with hc | hc
      · exact hzeros _ c hc
      · exact hdigits c hc
    · have hzero : Nat.ofDigitChars 10 ['0'] 0 = 0 := rfl
      rw [Nat.ofDigitChars_append, hzero, Nat.ofDigitChars_append, Nat.ofDigitChars_replicate_zero,
        Nat.mul_zero]
    · rw [List.length_append, List.length_replicate]
      omega
  · rw [if_neg hlow]
    by_cases hwhole : (digits.length : ℤ) ≤ place
    · rw [if_pos hwhole]
      have hpad : (place - digits.length).toNat = 0 := by omega
      rw [hpad, List.replicate_zero, List.append_nil]
      refine ⟨hdigits, by simp, hne, by rw [List.append_nil], ?_⟩
      rw [List.length_nil]
      omega
    · rw [if_neg hwhole]
      refine ⟨fun c hc => hdigits c (List.mem_of_mem_take hc),
        fun c hc => hdigits c (List.mem_of_mem_drop hc), ?_, by rw [List.take_append_drop], ?_⟩
      · rw [ne_eq, List.take_eq_nil_iff]
        rintro (hzero | hnil)
        · omega
        · exact hne hnil
      · rw [List.length_drop]
        omega

theorem dotPlace_le (d : Decimal) {n : ℕ} (hdigits : 0 < n) :
    d.dotPlace (d.exponent + n) ≤ n := by
  unfold dotPlace
  split <;> omega

theorem reads_fraction {frac rest : List Char} (hfrac : ∀ c ∈ frac, c.isDigit)
    (hrest : ∀ c ∈ rest.head?, ¬c.isDigit ∧ c ≠ '.') :
    ∃ found : Option (List Char), found.getD [] = frac ∧
      Reads (Reader.afterMark (· = '.') Reader.digits) (fractionText frac) found rest := by
  unfold fractionText
  split
  · rename_i hnil
    refine ⟨none, hnil.symm, .afterMark_none fun c hc => ?_⟩
    simpa using (hrest c hc).2
  · refine ⟨some frac, rfl, .afterMark_some (by decide) (.digits hfrac fun c hc => ?_)⟩
    exact (hrest c hc).1

/-- How many of the digits `str` writes before the point. -/
def placeOf (d : Decimal) : ℤ := d.dotPlace (d.exponent + (Nat.toDigits 10 d.coefficient).length)

/-- The digits that `str` writes before and after the point, and its exponent. -/
theorem str_spec (d : Decimal) : ∃ int frac shift,
    d.str = String.ofList (signText d.negative ++ (int ++ (fractionText frac ++ scaleText shift))) ∧
    (∀ c ∈ int, c.isDigit) ∧ (∀ c ∈ frac, c.isDigit) ∧ int ≠ [] ∧
    Nat.ofDigitChars 10 (int ++ frac) 0 = d.coefficient ∧ shift - frac.length = d.exponent := by
  have hne : Nat.toDigits 10 d.coefficient ≠ [] := Nat.toDigits_ne_nil
  have hplace : d.placeOf ≤ _ := d.dotPlace_le (List.length_pos_iff.mpr hne)
  obtain ⟨hint, hfrac, hint_ne, hvalue, hlength⟩ :=
    parts_spec (isDigit_toDigits d.coefficient) hne hplace
  refine ⟨(parts (Nat.toDigits 10 d.coefficient) d.placeOf).1,
    (parts (Nat.toDigits 10 d.coefficient) d.placeOf).2,
    d.exponent + (Nat.toDigits 10 d.coefficient).length - d.placeOf, rfl,
    hint, hfrac, hint_ne, ?_, ?_⟩
  · rw [hvalue, Nat.ofDigitChars_ten_toDigits]
  · rw [hlength]
    omega

theorem head_scaleText : ∀ c ∈ (scaleText e).head?, c = 'E' := by
  intro c hc
  unfold scaleText at hc
  split at hc
  · cases hc
  · exact (Option.some.inj hc).symm

theorem head_fractionText : ∀ c ∈ (fractionText frac ++ scaleText e).head?, c = '.' ∨ c = 'E' := by
  intro c hc
  unfold fractionText at hc
  split at hc
  · exact .inr (head_scaleText c hc)
  · exact .inl (Option.some.inj hc).symm

/-- What `str` writes, `Decimal` reads back. -/
theorem ofText_str (d : Decimal) : ofText d.str = some d := by
  obtain ⟨int, frac, shift, hstr, hint, hfrac, hne, hvalue, hshift⟩ := d.str_spec
  rw [hstr]
  have hend : ∀ c ∈ ([] : List Char).head?, ¬c.isDigit ∧ c ≠ 'E' ∧ c ≠ 'e' := by simp
  have hscaled : ∀ c ∈ (scaleText shift ++ []).head?, ¬c.isDigit ∧ c ≠ '.' := by
    intro c hc
    rw [List.append_nil] at hc
    rw [head_scaleText c hc]
    decide
  have hpointed : ∀ c ∈ (fractionText frac ++ scaleText shift ++ []).head?, ¬c.isDigit := by
    intro c hc
    rw [List.append_nil] at hc
    rcases head_fractionText c hc with rfl | rfl <;> decide
  have hsigned : ∀ c ∈ (int ++ (fractionText frac ++ scaleText shift) ++ []).head?,
      c ≠ '-' ∧ c ≠ '+' := by
    intro c hc
    rw [List.append_assoc, List.head?_append_of_ne_nil _ hne] at hc
    have hdigit := hint c (List.mem_of_mem_head? hc)
    constructor
    · rintro rfl
      cases hdigit
    · rintro rfl
      cases hdigit
  obtain ⟨scale, hscale, hreads_scale⟩ := reads_scale hend shift
  obtain ⟨found, hfound, hreads_frac⟩ := reads_fraction hfrac hscaled
  have hreads_sign := reads_sign d.negative hsigned
  have hreads_int := Reads.digits hint hpointed
  refine Reads.run (.bind hreads_sign (.bind hreads_int (.bind hreads_frac ?_)))
  rw [if_neg (fun hnil => hne hnil.1)]
  refine .last hreads_scale ?_
  rw [hscale, hfound, hvalue, hshift]
  exact .pure d

end Decimal

end FuturesBot
