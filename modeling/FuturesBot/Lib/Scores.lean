import Mathlib.Algebra.Order.BigOperators.Group.List
import Mathlib.Algebra.Order.Field.Basic
import Mathlib.Tactic.Linarith
import Mathlib.Tactic.Ring

namespace Lib

variable {K : Type u} [Field K]

/-- The scores of some places, weighted and added up. -/
def weightedSum (weight score : ι → K) (places : List ι) : K :=
  (places.map fun i => weight i * score i).sum

theorem weightedSum_cons (weight score : ι → K) (i : ι) (places : List ι) :
    weightedSum weight score (i :: places) =
      weight i * score i + weightedSum weight score places := by
  rw [weightedSum, List.map_cons, List.sum_cons, weightedSum]

theorem weightedSum_const (weight : ι → K) (x : K) (places : List ι) :
    weightedSum weight (fun _ => x) places = (places.map weight).sum * x := by
  induction places with
  | nil => simp [weightedSum]
  | cons i places ih =>
    rw [weightedSum_cons, ih, List.map_cons, List.sum_cons]
    ring

variable [LinearOrder K]

/-- The score of `[-1, 1]` that is nearest. -/
def clip (x : K) : K := max (-1) (min 1 x)

theorem clip_of_range {x : K} (h : -1 ≤ x ∧ x ≤ 1) : clip x = x := by
  rw [clip, min_eq_right h.2, max_eq_right h.1]

theorem clip_mono : Monotone (clip : K → K) :=
  fun _ _ h => max_le_max le_rfl (min_le_min le_rfl h)

/-- What squashes all numbers into `[-1, 1]`: it keeps their order and their signs, and does not
tell one sign from the other. Large numbers may come out as one. -/
structure Squashing (K : Type u) [Field K] [LinearOrder K] where
  apply : K → K
  mono : Monotone apply
  neg : ∀ x, apply (-x) = -apply x
  pos : ∀ x, 0 < x → 0 < apply x
  le_one : ∀ x, apply x ≤ 1

instance : CoeFun (Squashing K) fun _ => K → K := ⟨Squashing.apply⟩

variable [IsStrictOrderedRing K]

theorem weightedSum_mono {weight score score' : ι → K} {places : List ι}
    (hweight : ∀ i ∈ places, 0 ≤ weight i) (h : ∀ i ∈ places, score i ≤ score' i) :
    weightedSum weight score places ≤ weightedSum weight score' places :=
  List.sum_le_sum fun i hi => mul_le_mul_of_nonneg_left (h i hi) (hweight i hi)

/-- Weights that add up to one keep the bounds of the scores. -/
theorem weightedSum_between {weight score : ι → K} {places : List ι}
    (hweight : ∀ i ∈ places, 0 ≤ weight i) (hone : (places.map weight).sum = 1)
    (h : ∀ i ∈ places, lo ≤ score i ∧ score i ≤ hi) :
    lo ≤ weightedSum weight score places ∧ weightedSum weight score places ≤ hi := by
  have hlo : weightedSum weight (fun _ => lo) places ≤ weightedSum weight score places :=
    weightedSum_mono hweight fun i hi => (h i hi).1
  have hhi : weightedSum weight score places ≤ weightedSum weight (fun _ => hi) places :=
    weightedSum_mono hweight fun i hi => (h i hi).2
  rw [weightedSum_const, hone, one_mul] at hlo hhi
  exact ⟨hlo, hhi⟩

theorem clip_range (x : K) : -1 ≤ clip x ∧ clip x ≤ 1 :=
  ⟨le_max_left _ _, max_le (by linarith [(zero_le_one : (0 : K) ≤ 1)]) (min_le_left _ _)⟩

theorem clip_neg (x : K) : clip (-x) = -clip x := by
  rcases le_total x (-1) with hlow | hlow
  · rw [clip, clip, min_eq_left (by linarith), max_eq_right (by linarith),
      min_eq_right (by linarith), max_eq_left hlow, neg_neg]
  · rcases le_total x 1 with hhigh | hhigh
    · rw [clip_of_range ⟨by linarith, by linarith⟩, clip_of_range ⟨hlow, hhigh⟩]
    · rw [clip, clip, min_eq_right (by linarith), max_eq_left (by linarith), min_eq_left hhigh,
        max_eq_right (by linarith)]

namespace Squashing

variable (T : Squashing K)

theorem zero : T 0 = 0 := by
  have h := T.neg 0
  rw [neg_zero] at h
  linarith

theorem nonneg {x : K} (h : 0 ≤ x) : 0 ≤ T x := by
  rw [← T.zero]
  exact T.mono h

theorem range (x : K) : -1 ≤ T x ∧ T x ≤ 1 := by
  refine ⟨?_, T.le_one x⟩
  have h := T.le_one (-x)
  rw [T.neg] at h
  linarith

end Squashing

/-- Clipping is itself such a function. -/
def clipSquashing (K : Type u) [Field K] [LinearOrder K] [IsStrictOrderedRing K] : Squashing K where
  apply := clip
  mono := clip_mono
  neg := clip_neg
  pos _ h := lt_of_lt_of_le (lt_min one_pos h) (le_max_right _ _)
  le_one x := (clip_range x).2

end Lib
