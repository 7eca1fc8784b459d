import Mathlib.Algebra.Order.Field.Basic
import Mathlib.Data.List.Induction
import Mathlib.Tactic.Linarith
import Mathlib.Tactic.Ring

namespace Lib

variable {K : Type u} [Field K]

/-- Exponential smoothing of readings that come one after the other. Without a seed the first
one is taken as it is. -/
def smooth (alpha : K) (seed : Option K) (readings : List K) : Option K :=
  readings.foldl (fun prev x => some (match prev with
    | some prev => alpha * x + (1 - alpha) * prev
    | none => x)) seed

@[simp] theorem smooth_nil (alpha : K) (seed : Option K) : smooth alpha seed [] = seed := rfl

theorem smooth_concat (alpha : K) (seed : Option K) (readings : List K) (x : K) :
    smooth alpha seed (readings ++ [x]) = some (match smooth alpha seed readings with
      | some prev => alpha * x + (1 - alpha) * prev
      | none => x) := by
  rw [smooth, List.foldl_append]
  rfl

variable [LinearOrder K] [IsStrictOrderedRing K]

/-- What is smoothed stays between the bounds of the seed and of the readings. -/
theorem smooth_between {alpha : K} (halpha : 0 ≤ alpha ∧ alpha ≤ 1) {seed : Option K}
    {readings : List K} (hseed : ∀ x ∈ seed, lo ≤ x ∧ x ≤ hi)
    (hreadings : ∀ x ∈ readings, lo ≤ x ∧ x ≤ hi) :
    ∀ v ∈ smooth alpha seed readings, lo ≤ v ∧ v ≤ hi := by
  induction readings using List.reverseRecOn with
  | nil => exact hseed
  | append_singleton readings x ih =>
    obtain ⟨hlo, hhi⟩ := hreadings x (by simp)
    have hprev := ih fun y hy => hreadings y (List.mem_append_left _ hy)
    intro v hv
    rw [smooth_concat] at hv
    cases hv
    cases hsmooth : smooth alpha seed readings with
    | none => exact ⟨hlo, hhi⟩
    | some prev =>
      obtain ⟨hplo, hphi⟩ := hprev prev hsmooth
      have hrest : 0 ≤ 1 - alpha := by linarith [halpha.2]
      dsimp only
      constructor
      · calc lo = alpha * lo + (1 - alpha) * lo := by ring
          _ ≤ alpha * x + (1 - alpha) * prev :=
            add_le_add (mul_le_mul_of_nonneg_left hlo halpha.1)
              (mul_le_mul_of_nonneg_left hplo hrest)
      · calc alpha * x + (1 - alpha) * prev ≤ alpha * hi + (1 - alpha) * hi :=
            add_le_add (mul_le_mul_of_nonneg_left hhi halpha.1)
              (mul_le_mul_of_nonneg_left hphi hrest)
          _ = hi := by ring

end Lib
