import Mathlib.Algebra.BigOperators.Group.List.Basic
import Mathlib.Data.List.Basic
import Mathlib.Data.List.Nodup
import Mathlib.Logic.Function.Basic
import Mathlib.Tactic.Abel

namespace Lib

/-- A finite map that remembers the order its keys were first inserted in.
Overwriting a key keeps its place; removing and reinserting it moves it last. -/
structure Dict (κ : Type u) (α : Type v) where
  get : κ → Option α
  keys : List κ
  mem_keys : ∀ k, k ∈ keys ↔ (get k).isSome
  nodup : keys.Nodup

namespace Dict

variable {κ : Type u} {α : Type v}

def empty : Dict κ α where
  get _ := none
  keys := []
  mem_keys := by simp
  nodup := List.nodup_nil

/-- The bindings in key order. -/
def items (d : Dict κ α) : List (κ × α) :=
  d.keys.filterMap (fun k => (d.get k).map (fun v => (k, v)))

def values (d : Dict κ α) : List α :=
  d.keys.filterMap d.get

@[simp] theorem get_empty (k : κ) : (empty : Dict κ α).get k = none := rfl

@[simp] theorem keys_empty : (empty : Dict κ α).keys = [] := rfl

/-- The bindings that `f` keeps, under their keys and in their order. -/
def filterMap (d : Dict κ α) (f : κ → α → Option β) : Dict κ β where
  get k := (d.get k).bind (f k)
  keys := d.keys.filter (fun k => ((d.get k).bind (f k)).isSome)
  mem_keys := by
    intro k
    rw [List.mem_filter, d.mem_keys]
    cases d.get k <;> simp
  nodup := d.nodup.filter _

theorem get_filterMap (d : Dict κ α) (f : κ → α → Option β) (k : κ) :
    (d.filterMap f).get k = (d.get k).bind (f k) := rfl

section Update
variable [DecidableEq κ]

def set (d : Dict κ α) (k : κ) (v : α) : Dict κ α where
  get := Function.update d.get k (some v)
  keys := if k ∈ d.keys then d.keys else d.keys ++ [k]
  mem_keys := by
    intro k'
    by_cases he : k' = k
    · subst he
      by_cases hk : k' ∈ d.keys <;> simp [hk]
    · by_cases hk : k ∈ d.keys <;> simp [hk, he, d.mem_keys]
  nodup := by
    split
    · exact d.nodup
    · rename_i hk
      exact List.nodup_append.mpr ⟨d.nodup, by simp, by
        intro a ha b hb he
        rw [List.mem_singleton] at hb
        exact hk (hb ▸ he ▸ ha)⟩

/-- Removal of an absent key changes nothing. -/
def pop (d : Dict κ α) (k : κ) : Dict κ α where
  get := Function.update d.get k none
  keys := d.keys.erase k
  mem_keys := by
    intro k'
    rw [d.nodup.mem_erase_iff, d.mem_keys]
    by_cases he : k' = k <;> simp [he]
  nodup := d.nodup.erase k

@[simp] theorem get_set_self (d : Dict κ α) (k : κ) (v : α) : (d.set k v).get k = some v := by
  simp [set]

theorem get_set (d : Dict κ α) (k k' : κ) (v : α) :
    (d.set k v).get k' = if k' = k then some v else d.get k' := by
  simp [set, Function.update_apply]

@[simp] theorem get_set_ne (d : Dict κ α) (v : α) (h : k' ≠ k) :
    (d.set k v).get k' = d.get k' := by
  simp [get_set, h]

theorem mem_keys_set_self (d : Dict κ α) (k : κ) (v : α) : k ∈ (d.set k v).keys := by
  simp [mem_keys]

theorem mem_keys_set_of_mem {d : Dict κ α} (h : k' ∈ d.keys) (k : κ) (v : α) :
    k' ∈ (d.set k v).keys := by
  rw [mem_keys, get_set]
  split
  · rfl
  · exact (d.mem_keys k').mp h

@[simp] theorem get_pop_self (d : Dict κ α) (k : κ) : (d.pop k).get k = none := by
  simp [pop]

theorem get_pop (d : Dict κ α) (k k' : κ) :
    (d.pop k).get k' = if k' = k then none else d.get k' := by
  simp [pop, Function.update_apply]

@[simp] theorem get_pop_ne (d : Dict κ α) (h : k' ≠ k) : (d.pop k).get k' = d.get k' := by
  simp [get_pop, h]

theorem mem_keys_set {d : Dict κ α} : k' ∈ (d.set k v).keys ↔ k' = k ∨ k' ∈ d.keys := by
  rw [mem_keys, get_set, d.mem_keys]
  split
  · rename_i h
    exact iff_of_true rfl (.inl h)
  · rename_i h
    exact (or_iff_right h).symm

theorem mem_keys_pop {d : Dict κ α} : k' ∈ (d.pop k).keys ↔ k' ≠ k ∧ k' ∈ d.keys := by
  rw [and_comm]
  exact d.nodup.mem_erase_iff.trans and_comm

end Update

theorem mem_keys_of_get {d : Dict κ α} (h : d.get k = some v) : k ∈ d.keys := by
  simp [d.mem_keys, h]

theorem get_of_mem_keys {d : Dict κ α} (h : k ∈ d.keys) : ∃ v, d.get k = some v :=
  Option.isSome_iff_exists.mp ((d.mem_keys k).mp h)

theorem mem_items {d : Dict κ α} (h : d.get k = some v) : (k, v) ∈ d.items :=
  List.mem_filterMap.mpr ⟨k, mem_keys_of_get h, by rw [h]; rfl⟩

theorem get_of_mem_items {d : Dict κ α} (h : (k, v) ∈ d.items) : d.get k = some v := by
  obtain ⟨k', _, hk⟩ := List.mem_filterMap.mp h
  cases hv : d.get k' with
  | none => simp [hv] at hk
  | some v' =>
    rw [hv] at hk
    cases hk
    exact hv

theorem mem_values {d : Dict κ α} : v ∈ d.values ↔ ∃ k, d.get k = some v := by
  rw [values, List.mem_filterMap]
  constructor
  · intro h
    obtain ⟨k, _, hk⟩ := h
    exact ⟨k, hk⟩
  · intro h
    obtain ⟨k, hk⟩ := h
    exact ⟨k, mem_keys_of_get hk, hk⟩

theorem items_ne_nil {d : Dict κ α} (h : k ∈ d.keys) : d.items ≠ [] := by
  obtain ⟨v, hv⟩ := get_of_mem_keys h
  exact List.ne_nil_of_mem (List.mem_filterMap.mpr ⟨k, h, by rw [hv]; rfl⟩)

section Sum
variable {M : Type w} [AddCommGroup M]

/-- The sum of what the bindings are worth. -/
def sumOf (d : Dict κ α) (worth : κ → α → M) : M :=
  (d.items.map (fun kv => worth kv.1 kv.2)).sum

/-- What a key is worth, and nothing without a binding. -/
def worthOf (worth : κ → α → M) (d : Dict κ α) (k : κ) : M := (d.get k).elim 0 (worth k)

theorem sumOf_eq (d : Dict κ α) (worth : κ → α → M) :
    d.sumOf worth = (d.keys.map (worthOf worth d)).sum := by
  unfold sumOf items
  induction d.keys with
  | nil => rfl
  | cons k keys ih =>
    rw [List.filterMap_cons, List.map_cons, List.sum_cons, ← ih]
    cases hk : d.get k with
    | none => simp [worthOf, hk]
    | some v => simp [worthOf, hk]

@[simp] theorem sumOf_empty (worth : κ → α → M) : (empty : Dict κ α).sumOf worth = 0 := rfl

variable [DecidableEq κ]

theorem worthOf_set (d : Dict κ α) (k k' : κ) (v : α) (worth : κ → α → M) :
    worthOf worth (d.set k v) k' = if k' = k then worth k v else worthOf worth d k' := by
  unfold worthOf
  rw [get_set]
  split
  · rename_i h
    rw [h]
    rfl
  · rfl

/-- Taking one key out of the sum. -/
theorem sumOf_erase {d : Dict κ α} (hk : k ∈ d.keys) (worth : κ → α → M) :
    d.sumOf worth = worthOf worth d k + ((d.keys.erase k).map (worthOf worth d)).sum := by
  rw [sumOf_eq, List.sum_map_erase _ hk]

theorem worthOf_congr {d d' : Dict κ α} (hn : d.keys.Nodup)
    (h : ∀ k', k' ≠ k → d'.get k' = d.get k') (worth : κ → α → M) :
    ((d.keys.erase k).map (worthOf worth d')).sum =
      ((d.keys.erase k).map (worthOf worth d)).sum := by
  congr 1
  apply List.map_congr_left
  intro k' hk'
  have hne : k' ≠ k := (hn.mem_erase_iff.mp hk').1
  rw [worthOf, worthOf, h k' hne]

/-- A new binding counts in place of the old one. -/
theorem sumOf_set (d : Dict κ α) (k : κ) (v : α) (worth : κ → α → M) :
    (d.set k v).sumOf worth + worthOf worth d k = d.sumOf worth + worth k v := by
  have hget : ∀ k', k' ≠ k → (d.set k v).get k' = d.get k' := fun k' h => get_set_ne d v h
  have hself : worthOf worth (d.set k v) k = worth k v := by rw [worthOf_set, if_pos rfl]
  by_cases hk : k ∈ d.keys
  · have hkeys : (d.set k v).keys = d.keys := if_pos hk
    rw [sumOf_erase (d := d.set k v) (hkeys ▸ hk), sumOf_erase hk, hself, hkeys,
      worthOf_congr d.nodup hget]
    abel
  · have hkeys : (d.set k v).keys = d.keys ++ [k] := if_neg hk
    have hnone : worthOf worth d k = 0 := by
      have hg : d.get k = none := by simpa [d.mem_keys] using hk
      rw [worthOf, hg]
      rfl
    have hsame : d.keys.map (worthOf worth (d.set k v)) = d.keys.map (worthOf worth d) := by
      apply List.map_congr_left
      intro k' hk'
      have hne : k' ≠ k := by
        rintro rfl
        exact hk hk'
      rw [worthOf_set, if_neg hne]
    rw [sumOf_eq, sumOf_eq, hkeys, List.map_append, List.sum_append, hsame, hnone]
    simp [hself]

theorem sumOf_pop (d : Dict κ α) (k : κ) (worth : κ → α → M) :
    (d.pop k).sumOf worth + worthOf worth d k = d.sumOf worth := by
  have hget : ∀ k', k' ≠ k → (d.pop k).get k' = d.get k' := fun k' h => get_pop_ne d h
  by_cases hk : k ∈ d.keys
  · rw [sumOf_eq (d.pop k), sumOf_erase hk]
    have hkeys : (d.pop k).keys = d.keys.erase k := rfl
    rw [hkeys, worthOf_congr d.nodup hget, add_comm]
  · have hg : d.get k = none := by simpa [d.mem_keys] using hk
    have hsame : ∀ k', worthOf worth (d.pop k) k' = worthOf worth d k' := by
      intro k'
      by_cases he : k' = k
      · rw [he, worthOf, worthOf, get_pop_self, hg]
      · rw [worthOf, worthOf, hget k' he]
    have hkeys : (d.pop k).keys = d.keys := List.erase_of_not_mem hk
    rw [sumOf_eq, sumOf_eq, hkeys, List.map_congr_left (fun k' _ => hsame k'), worthOf, hg]
    simp

end Sum

end Dict

end Lib
