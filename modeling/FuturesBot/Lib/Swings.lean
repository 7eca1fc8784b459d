import Mathlib.Data.List.Basic
import Mathlib.Data.List.Induction
import Mathlib.Order.Bounds.Basic
import Mathlib.Order.MinMax

namespace Lib

/-- Whether `x` beats what stands no more than `reach` places from the `i`-th, itself apart. -/
def beatsAround (beats : α → α → Prop) [DecidableRel beats] (reach : ℕ) (xs : List α) (i : ℕ)
    (x : α) : Bool :=
  (List.range' (i - reach) (2 * reach + 1)).all fun j =>
    decide (j = i) || xs[j]?.all fun y => decide (beats x y)

/-- The places that have `reach` neighbours on each side and beat all of them, in order, as what
stands there. -/
def extremes (beats : α → α → Prop) [DecidableRel beats] (reach : ℕ) (xs : List α) : List α :=
  (List.range' reach (xs.length - 2 * reach)).filterMap fun i =>
    xs[i]?.filter (beatsAround beats reach xs i)

variable {beats : α → α → Prop} [DecidableRel beats]

theorem beatsAround_iff : beatsAround beats reach xs i x ↔
    ∀ j y, xs[j]? = some y → j ≠ i → i - reach ≤ j → j < i - reach + (2 * reach + 1) →
      beats x y := by
  simp only [beatsAround, List.all_eq_true, List.mem_range'_1, Bool.or_eq_true, decide_eq_true_eq,
    Option.all_eq_true, and_imp]
  constructor
  · intro h j y hj hne hleft hright
    exact (h j hleft hright).resolve_left hne y hj
  · intro h j hleft hright
    by_cases hne : j = i
    · exact .inl hne
    · exact .inr fun y hy => h j y hy hne hleft hright

theorem mem_extremes_iff : x ∈ extremes beats reach xs ↔
    ∃ i, reach ≤ i ∧ i + reach < xs.length ∧ xs[i]? = some x ∧
      ∀ j y, xs[j]? = some y → j ≠ i → i ≤ j + reach → j ≤ i + reach → beats x y := by
  unfold extremes
  rw [List.mem_filterMap]
  constructor
  · rintro ⟨i, hi, hx⟩
    obtain ⟨hlow, hhigh⟩ := List.mem_range'_1.mp hi
    obtain ⟨hget, hbeats⟩ := Option.filter_eq_some_iff.mp hx
    refine ⟨i, hlow, by omega, hget, fun j y hj hne hleft hright => ?_⟩
    exact beatsAround_iff.mp hbeats j y hj hne (by omega) (by omega)
  · rintro ⟨i, hlow, hhigh, hget, hbeats⟩
    refine ⟨i, List.mem_range'_1.mpr ⟨hlow, by omega⟩, Option.filter_eq_some_iff.mpr ⟨hget, ?_⟩⟩
    exact beatsAround_iff.mpr fun j y hj hne hleft hright =>
      hbeats j y hj hne (by omega) (by omega)

/-- What keeps the relation keeps the places. -/
theorem extremes_map {beats' : β → β → Prop} [DecidableRel beats'] {f : α → β}
    (h : ∀ x y, beats' (f x) (f y) ↔ beats x y) (reach : ℕ) (xs : List α) :
    extremes beats' reach (xs.map f) = (extremes beats reach xs).map f := by
  have hbeats : ∀ i x,
      beatsAround beats' reach (xs.map f) i (f x) = beatsAround beats reach xs i x := by
    intro i x
    rw [Bool.eq_iff_iff, beatsAround_iff, beatsAround_iff]
    simp only [List.getElem?_map, Option.map_eq_some_iff, forall_exists_index, and_imp,
      forall_apply_eq_imp_iff₂, h]
  unfold extremes
  rw [List.length_map, List.map_filterMap]
  refine List.filterMap_congr fun i _ => ?_
  rw [List.getElem?_map]
  cases xs[i]? with
  | none => rfl
  | some x =>
    simp only [Option.map_some, Option.filter_some, hbeats]
    split <;> rfl

/-- The best of the places so far, and where it was found. -/
structure Best (α : Type u) (β : Type v) where
  score : β
  place : Option α

/-- One pass over the places that count. A later one has to be better. -/
def bestOf [LT β] [DecidableLT β] (counts : α → Bool) (score : α → β) (start : Best α β)
    (places : List α) : Best α β :=
  places.foldl (fun best x =>
    if counts x then if best.score < score x then ⟨score x, some x⟩ else best else best) start

variable {counts : α → Bool} {score : α → β} {start : Best α β}

theorem bestOf_concat [LinearOrder β] (places : List α) (x : α) :
    (bestOf counts score start (places ++ [x])).score =
      if counts x then max (bestOf counts score start places).score (score x)
      else (bestOf counts score start places).score := by
  unfold bestOf
  rw [List.foldl_append, List.foldl_cons, List.foldl_nil]
  split
  · split
    · rename_i hlt
      exact (max_eq_right hlt.le).symm
    · rename_i hle
      exact (max_eq_left (not_lt.mp hle)).symm
  · rfl

/-- The pass finds the greatest of the scores that count, unless the start is greater. -/
theorem bestOf_isGreatest [LinearOrder β] (counts : α → Bool) (score : α → β) (start : Best α β)
    (places : List α) :
    IsGreatest (insert start.score {b | ∃ x ∈ places, counts x ∧ b = score x})
      (bestOf counts score start places).score := by
  induction places using List.reverseRecOn with
  | nil => exact ⟨.inl rfl, by simp [bestOf]⟩
  | append_singleton places x ih =>
    have hgrow : insert start.score {b | ∃ y ∈ places, counts y ∧ b = score y} ⊆
        insert start.score {b | ∃ y ∈ places ++ [x], counts y ∧ b = score y} := by
      refine Set.insert_subset_insert ?_
      rintro b ⟨y, hy, hcounts, hb⟩
      exact ⟨y, List.mem_append_left _ hy, hcounts, hb⟩
    rw [bestOf_concat]
    constructor
    · split
      · rename_i hcounts
        rcases max_choice (bestOf counts score start places).score (score x) with hmax | hmax
        · rw [hmax]
          exact hgrow ih.1
        · rw [hmax]
          exact .inr ⟨x, List.mem_append_right _ List.mem_cons_self, hcounts, rfl⟩
      · exact hgrow ih.1
    · have hold : (bestOf counts score start places).score ≤
          if counts x then max (bestOf counts score start places).score (score x)
          else (bestOf counts score start places).score := by
        split
        · exact le_max_left _ _
        · exact le_rfl
      rintro b (rfl | ⟨y, hy, hcounts, rfl⟩)
      · exact (ih.2 (.inl rfl)).trans hold
      · rcases List.mem_append.mp hy with hy | hy
        · exact (ih.2 (.inr ⟨y, hy, hcounts, rfl⟩)).trans hold
        · rw [List.mem_singleton.mp hy] at hcounts ⊢
          rw [if_pos hcounts]
          exact le_max_right _ _

/-- Places that are told apart and weighed alike have the same best score. -/
theorem bestOf_map [LinearOrder β] {counts' : γ → Bool} {score' : γ → β} {start' : Best γ β}
    {f : α → γ} (hstart : start'.score = start.score) (hcounts : ∀ x, counts' (f x) = counts x)
    (hscore : ∀ x, score' (f x) = score x) (places : List α) :
    (bestOf counts' score' start' (places.map f)).score =
      (bestOf counts score start places).score := by
  induction places using List.reverseRecOn with
  | nil => exact hstart
  | append_singleton places x ih =>
    rw [List.map_append, List.map_singleton, bestOf_concat, bestOf_concat, ih, hcounts, hscore]

end Lib
