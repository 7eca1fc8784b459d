import Mathlib.Data.List.Basic
import Mathlib.Order.Basic

namespace Lib

variable {α : Type u} {cut : ℕ → ℕ}

/-- The elements from one index up to another. -/
def slice (l : List α) (start stop : ℕ) : List α := (l.take stop).drop start

theorem take_append_slice (l : List α) (h : start ≤ stop) :
    l.take start ++ slice l start stop = l.take stop := by
  have htake : (l.take stop).take start = l.take start := by
    rw [List.take_take, Nat.min_eq_left h]
  rw [← htake]
  exact List.take_append_drop start (l.take stop)

theorem length_slice (l : List α) (h : stop ≤ l.length) :
    (slice l start stop).length = stop - start := by
  rw [slice, List.length_drop, List.length_take, Nat.min_eq_left h]

/-- What holds in the order of a list holds between what lies before a slice and the slice. -/
theorem pairwise_slice {R : α → α → Prop} {l : List α} (hl : l.Pairwise R) (h : start ≤ stop) :
    ∀ a ∈ l.take start, ∀ b ∈ slice l start stop, R a b := by
  have htake : (l.take start ++ slice l start stop).Pairwise R := by
    rw [take_append_slice l h]
    exact hl.sublist (List.take_sublist stop l)
  exact (List.pairwise_append.mp htake).2.2

/-- Slices between rising cuts put together everything up to the last one. -/
theorem take_append_slices (l : List α) (k : ℕ) (hcut : ∀ i < k, cut i ≤ cut (i + 1)) :
    l.take (cut 0) ++ ((List.range k).map fun i => slice l (cut i) (cut (i + 1))).flatten =
      l.take (cut k) := by
  induction k with
  | zero => simp
  | succ k ih =>
    have hbefore := ih fun i hi => hcut i (Nat.lt_succ_of_lt hi)
    have hlast : [slice l (cut k) (cut (k + 1))].flatten = slice l (cut k) (cut (k + 1)) := by
      simp
    rw [List.range_succ, List.map_append, List.flatten_append, ← List.append_assoc, hbefore,
      List.map_singleton, hlast]
    exact take_append_slice l (hcut k (Nat.lt_succ_self k))

end Lib
