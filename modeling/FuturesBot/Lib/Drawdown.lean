import Mathlib.Algebra.Order.Field.Basic
import Mathlib.Data.List.Induction
import Mathlib.Order.Bounds.Basic
import Mathlib.Tactic.Linarith

namespace Lib

theorem isGreatest_concat {α : Type u} [LinearOrder α] {l : List α} {peak : α}
    (h : IsGreatest {y | y ∈ l} peak) (x : α) :
    IsGreatest {y | y ∈ l ++ [x]} (max peak x) := by
  refine ⟨?_, fun y hy => ?_⟩
  · rcases max_choice peak x with hmax | hmax
    · rw [hmax]
      exact List.mem_append_left _ h.1
    · rw [hmax]
      exact List.mem_append_right _ (List.mem_singleton_self x)
  · rcases List.mem_append.mp hy with hy | hy
    · exact le_max_of_le_left (h.2 hy)
    · exact le_max_of_le_right (List.mem_singleton.mp hy).le

theorem exists_isGreatest {α : Type u} [LinearOrder α] {l : List α} (h : l ≠ []) :
    ∃ peak, IsGreatest {y | y ∈ l} peak := by
  induction l using List.reverseRecOn with
  | nil => exact absurd rfl h
  | append_singleton l x ih =>
    by_cases hl : l = []
    · subst hl
      exact ⟨x, by simp, by simp⟩
    · obtain ⟨peak, hpeak⟩ := ih hl
      exact ⟨max peak x, isGreatest_concat hpeak x⟩

variable {K : Type u} [Field K] [LinearOrder K]

/-- A fall of a curve from the highest of its points up to the `i`-th, if that is positive, to the
`j`-th. -/
structure Fall (curve : List K) (i j : ℕ) (peak point : K) : Prop where
  le : i ≤ j
  point_eq : curve[j]? = some point
  isGreatest : IsGreatest {x | x ∈ curve.take (i + 1)} peak
  pos : 0 < peak

def falls (curve : List K) : Set K :=
  {f | ∃ i j peak point, Fall curve i j peak point ∧ f = (peak - point) / peak}

/-- To a point below zero a curve falls from the highest point so far only. From a lower one the
fall would be a larger part of it. -/
def fallsFromPeak (curve : List K) : Set K :=
  {f | ∃ i j peak point, Fall curve i j peak point ∧ (i = j ∨ 0 ≤ point) ∧
    f = (peak - point) / peak}

/-- The maximum of a set, and zero if there is nothing in it. -/
def IsMaximum (s : Set K) (m : K) : Prop := IsGreatest s m ∨ s = ∅ ∧ m = 0

/-- The largest fall of a curve, and what it is zero for. -/
structure LargestFall (curve : List K) (dd : K) : Prop where
  fromPeak : IsMaximum (fallsFromPeak curve) dd
  ofNonneg : (∀ x ∈ curve, 0 ≤ x) → IsMaximum (falls curve) dd
  eq_zero_iff : dd = 0 ↔ ∀ i j peak point, Fall curve i j peak point → peak ≤ point

/-- One pass over the rest of a curve, with the highest point and the largest fall so far. -/
def drawdown (peak worst : K) : List K → K
  | [] => worst
  | x :: xs =>
    drawdown (max peak x)
      (if 0 < max peak x then max worst ((max peak x - x) / max peak x) else worst) xs

/-- What has been measured of the points that the pass has seen. -/
structure Measured (curve : List K) (worst : K) : Prop where
  nonneg : 0 ≤ worst
  bound : ∀ f ∈ fallsFromPeak curve, f ≤ worst
  attained : worst = 0 ∨ worst ∈ fallsFromPeak curve

variable {curve : List K} {peak point worst x : K}

theorem Fall.append (h : Fall curve i j peak point) (more : List K) :
    Fall (curve ++ more) i j peak point := by
  have hj : j < curve.length := (List.getElem?_eq_some_iff.mp h.point_eq).1
  refine ⟨h.le, ?_, ?_, h.pos⟩
  · rw [List.getElem?_append_left hj]
    exact h.point_eq
  · rw [List.take_append_of_le_length (Nat.succ_le_of_lt (h.le.trans_lt hj))]
    exact h.isGreatest

/-- A fall of a longer curve is one of the curve before, or goes to the last point. -/
theorem Fall.of_concat (h : Fall (curve ++ [x]) i j peak point) :
    Fall curve i j peak point ∨ j = curve.length ∧ point = x := by
  obtain ⟨hj, hpoint⟩ := List.getElem?_eq_some_iff.mp h.point_eq
  rw [List.length_append, List.length_singleton] at hj
  by_cases hlast : j = curve.length
  · subst hlast
    rw [List.getElem_concat_length rfl] at hpoint
    exact .inr ⟨rfl, hpoint.symm⟩
  · have hj : j < curve.length := by omega
    refine .inl ⟨h.le, ?_, ?_, h.pos⟩
    · rw [← h.point_eq, List.getElem?_append_left hj]
    · have hpeak := h.isGreatest
      rwa [List.take_append_of_le_length (Nat.succ_le_of_lt (h.le.trans_lt hj))] at hpeak

/-- From the highest point so far, a curve falls to its last one. -/
theorem fall_last (h : IsGreatest {y | y ∈ curve ++ [x]} peak) (hpos : 0 < peak) :
    Fall (curve ++ [x]) curve.length curve.length peak x := by
  refine ⟨le_rfl, List.getElem?_concat_length, ?_, hpos⟩
  rwa [List.take_of_length_le (by simp)]

theorem Fall.fromPeak (h : Fall curve i j peak point) :
    ∃ highest, peak ≤ highest ∧ Fall curve j j highest point := by
  have hpoint := List.mem_of_getElem? h.point_eq
  have hne : curve.take (j + 1) ≠ [] := by
    rw [ne_eq, List.take_eq_nil_iff]
    rintro (hzero | rfl)
    · cases hzero
    · cases hpoint
  obtain ⟨highest, hhighest⟩ := exists_isGreatest hne
  have hle : peak ≤ highest :=
    hhighest.2 (List.take_subset_take_left curve (Nat.succ_le_succ h.le) h.isGreatest.1)
  exact ⟨highest, hle, le_rfl, h.point_eq, hhighest, h.pos.trans_le hle⟩

theorem Fall.point_mem (h : Fall curve i j peak point) : point ∈ curve.take (j + 1) := by
  have hpoint : (curve.take (j + 1))[j]? = some point := by
    rw [List.getElem?_take_of_lt (Nat.lt_succ_self j)]
    exact h.point_eq
  exact List.mem_of_getElem? hpoint

theorem measured_singleton (first : K) : Measured [first] 0 := by
  refine ⟨le_rfl, ?_, .inl rfl⟩
  rintro f ⟨i, j, p, y, hfall, -, rfl⟩
  have hp : p = first := List.mem_singleton.mp (List.mem_of_mem_take hfall.isGreatest.1)
  have hy : y = first := List.mem_singleton.mp (List.mem_of_getElem? hfall.point_eq)
  rw [hp, hy, sub_self, zero_div]

theorem fallsFromPeak_eq_falls (h : ∀ x ∈ curve, 0 ≤ x) : fallsFromPeak curve = falls curve := by
  ext f
  constructor
  · rintro ⟨i, j, peak, point, hfall, -, heq⟩
    exact ⟨i, j, peak, point, hfall, heq⟩
  · rintro ⟨i, j, peak, point, hfall, heq⟩
    exact ⟨i, j, peak, point, hfall, .inr (h point (List.mem_of_getElem? hfall.point_eq)), heq⟩

variable [IsStrictOrderedRing K]

theorem div_fall_le {p q : K} (hp : 0 < p) (hpq : p ≤ q) (hx : 0 ≤ x) :
    (p - x) / p ≤ (q - x) / q := by
  have hscaled : x * p ≤ x * q := mul_le_mul_of_nonneg_left hpq hx
  rw [div_le_div_iff₀ hp (hp.trans_le hpq)]
  linarith

theorem Measured.step (h : Measured curve worst) (hpeak : IsGreatest {y | y ∈ curve} peak)
    (x : K) :
    Measured (curve ++ [x])
      (if 0 < max peak x then max worst ((max peak x - x) / max peak x) else worst) := by
  have hhighest := isGreatest_concat hpeak x
  have hold : worst = 0 ∨ worst ∈ fallsFromPeak (curve ++ [x]) :=
    h.attained.imp_right fun ⟨i, j, p, y, hfall, hcounts, heq⟩ =>
      ⟨i, j, p, y, hfall.append [x], hcounts, heq⟩
  by_cases hpos : 0 < max peak x
  · rw [if_pos hpos]
    refine ⟨le_max_of_le_left h.nonneg, ?_, ?_⟩
    · rintro f ⟨i, j, p, y, hfall, hcounts, rfl⟩
      rcases hfall.of_concat with hbefore | ⟨rfl, rfl⟩
      · exact le_max_of_le_left (h.bound _ ⟨i, j, p, y, hbefore, hcounts, rfl⟩)
      · refine le_max_of_le_right ?_
        rcases hcounts with rfl | hy
        · rw [hfall.isGreatest.unique (fall_last hhighest hpos).isGreatest]
        · have hle : p ≤ max peak y := hhighest.2 (List.mem_of_mem_take hfall.isGreatest.1)
          exact div_fall_le hfall.pos hle hy
    · rcases max_choice worst ((max peak x - x) / max peak x) with hmax | hmax
      · rw [hmax]
        exact hold
      · rw [hmax]
        exact .inr ⟨_, _, _, _, fall_last hhighest hpos, .inl rfl, rfl⟩
  · rw [if_neg hpos]
    refine ⟨h.nonneg, ?_, hold⟩
    rintro f ⟨i, j, p, y, hfall, hcounts, rfl⟩
    have hle : p ≤ max peak x := hhighest.2 (List.mem_of_mem_take hfall.isGreatest.1)
    exact absurd (hfall.pos.trans_le hle) hpos

theorem measured_drawdown (h : Measured curve worst) (hpeak : IsGreatest {y | y ∈ curve} peak)
    (xs : List K) : Measured (curve ++ xs) (drawdown peak worst xs) := by
  induction xs generalizing curve peak worst with
  | nil =>
    rw [List.append_nil]
    exact h
  | cons x xs ih =>
    rw [drawdown, List.append_cons]
    exact ih (h.step hpeak x) (isGreatest_concat hpeak x)

/-- After the whole curve, the largest fall is what has been measured. -/
theorem Measured.isMaximum (h : Measured curve worst) : IsMaximum (fallsFromPeak curve) worst := by
  rcases h.attained with hzero | hmem
  · rcases (fallsFromPeak curve).eq_empty_or_nonempty with hnone | ⟨f, i, j, p, y, hfall, -, -⟩
    · exact .inr ⟨hnone, hzero⟩
    · obtain ⟨highest, -, hpeak⟩ := hfall.fromPeak
      have hmem : (highest - y) / highest ∈ fallsFromPeak curve :=
        ⟨j, j, highest, y, hpeak, .inl rfl, rfl⟩
      have hle : y ≤ highest := hpeak.isGreatest.2 hfall.point_mem
      have hnonneg : 0 ≤ (highest - y) / highest := div_nonneg (sub_nonneg.mpr hle) hpeak.pos.le
      have heq : (highest - y) / highest = worst :=
        le_antisymm (h.bound _ hmem) (hzero ▸ hnonneg)
      exact .inl ⟨heq ▸ hmem, h.bound⟩
  · exact .inl ⟨hmem, h.bound⟩

/-- Nothing has been measured of a curve that never falls below an earlier peak. -/
theorem Measured.eq_zero_iff (h : Measured curve worst) :
    worst = 0 ↔ ∀ i j peak point, Fall curve i j peak point → peak ≤ point := by
  constructor
  · intro hzero i j peak point hfall
    obtain ⟨highest, hle, hpeak⟩ := hfall.fromPeak
    have hbound := h.bound _ ⟨j, j, highest, point, hpeak, .inl rfl, rfl⟩
    rw [hzero, div_le_iff₀ hpeak.pos, zero_mul, sub_nonpos] at hbound
    exact hle.trans hbound
  · intro hnever
    rcases h.attained with hzero | ⟨i, j, peak, point, hfall, -, heq⟩
    · exact hzero
    · refine le_antisymm ?_ h.nonneg
      rw [heq, div_le_iff₀ hfall.pos, zero_mul, sub_nonpos]
      exact hnever i j peak point hfall

theorem Measured.largestFall (h : Measured curve worst) : LargestFall curve worst where
  fromPeak := h.isMaximum
  ofNonneg hnonneg := fallsFromPeak_eq_falls hnonneg ▸ h.isMaximum
  eq_zero_iff := h.eq_zero_iff

end Lib
