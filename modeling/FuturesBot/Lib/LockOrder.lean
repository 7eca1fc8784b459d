import Mathlib.Logic.Function.Basic
import Mathlib.Logic.Relation
import Mathlib.Order.Basic

namespace Lib

/-- Who holds each lock, and which lock a holder waits for. -/
@[ext] structure LockTable (τ : Type u) (κ : Type v) where
  holder : κ → Option τ
  waiting : τ → Option κ

namespace LockTable

variable {τ : Type u} {κ : Type v}

def free : LockTable τ κ := ⟨fun _ => none, fun _ => none⟩

def WaitsFor (l : LockTable τ κ) (t u : τ) : Prop :=
  ∃ k, l.waiting t = some k ∧ l.holder k = some u

/-- A cycle of holders that wait for one another. -/
def Deadlock (l : LockTable τ κ) : Prop := ∃ t, Relation.TransGen l.WaitsFor t t

theorem deadlock_of_pair {l : LockTable τ κ} (h : l.WaitsFor t u) (h' : l.WaitsFor u t) :
    l.Deadlock :=
  ⟨t, .tail (.single h) h'⟩

section Update
variable [DecidableEq τ] (l : LockTable τ κ)

def acquire [DecidableEq κ] (t : τ) (k : κ) : LockTable τ κ where
  holder := Function.update l.holder k (some t)
  waiting := Function.update l.waiting t none

def wait (t : τ) (k : κ) : LockTable τ κ :=
  { l with waiting := Function.update l.waiting t (some k) }

/-- The holder goes on without a lock. -/
def resume (t : τ) : LockTable τ κ :=
  { l with waiting := Function.update l.waiting t none }

/-- The holder gives back all its locks. -/
def release (t : τ) : LockTable τ κ where
  holder k := if l.holder k = some t then none else l.holder k
  waiting := Function.update l.waiting t none

@[simp] theorem holder_wait (t : τ) (k : κ) : (l.wait t k).holder = l.holder := rfl

@[simp] theorem holder_resume (t : τ) : (l.resume t).holder = l.holder := rfl

theorem holder_acquire [DecidableEq κ] (t : τ) (k m : κ) :
    (l.acquire t k).holder m = if m = k then some t else l.holder m :=
  Function.update_apply _ _ _ _

theorem holder_release {l : LockTable τ κ} (h : (l.release t).holder m = some u) :
    l.holder m = some u ∧ u ≠ t := by
  simp only [release, Option.ite_none_left_eq_some] at h
  refine ⟨h.2, ?_⟩
  rintro rfl
  exact h.1 h.2

theorem waiting_resume (t u : τ) :
    (l.resume t).waiting u = if u = t then none else l.waiting u :=
  Function.update_apply _ _ _ _

theorem waiting_wait (t u : τ) (k : κ) :
    (l.wait t k).waiting u = if u = t then some k else l.waiting u :=
  Function.update_apply _ _ _ _

@[simp] theorem waiting_acquire [DecidableEq κ] (t : τ) (k : κ) :
    (l.acquire t k).waiting = (l.resume t).waiting := rfl

@[simp] theorem waiting_release (t : τ) : (l.release t).waiting = (l.resume t).waiting := rfl

/-- The last holder leaves all locks free. -/
theorem release_eq_free {l : LockTable τ κ} (hh : ∀ k u, l.holder k = some u → u = t)
    (hw : ∀ u, l.waiting u = none) : l.release t = free := by
  apply LockTable.ext
  · funext k
    show (l.release t).holder k = none
    rw [Option.eq_none_iff_forall_ne_some]
    intro u hu
    obtain ⟨hu, hne⟩ := holder_release hu
    exact hne (hh k u hu)
  · funext u
    rw [waiting_release, waiting_resume, hw]
    split <;> rfl

end Update

variable {ρ : Type w} [Preorder ρ] {rank : κ → ρ} {l : LockTable τ κ}

/-- Everyone waits for a lock above all the locks it holds. -/
def Ordered (rank : κ → ρ) (l : LockTable τ κ) : Prop :=
  ∀ t k, l.waiting t = some k → ∀ m, l.holder m = some t → rank m < rank k

/-- Along a chain of waits the ranks do not come down. -/
theorem Ordered.chain (h : l.Ordered rank) (hc : Relation.TransGen l.WaitsFor t u) :
    ∃ k m, l.waiting t = some k ∧ l.holder m = some u ∧ rank k ≤ rank m := by
  induction hc with
  | single hw =>
    obtain ⟨k, hk, hu⟩ := hw
    exact ⟨k, k, hk, hu, le_rfl⟩
  | tail _ hw ih =>
    obtain ⟨k, m, hk, hm, hle⟩ := ih
    obtain ⟨k', hk', hu⟩ := hw
    exact ⟨k, k', hk, hu, hle.trans (h _ k' hk' m hm).le⟩

theorem Ordered.not_deadlock (h : l.Ordered rank) : ¬l.Deadlock := by
  intro hd
  obtain ⟨t, hc⟩ := hd
  obtain ⟨k, m, hk, hm, hle⟩ := h.chain hc
  exact lt_irrefl _ ((h t k hk m hm).trans_le hle)

theorem ordered_free (rank : κ → ρ) : (free : LockTable τ κ).Ordered rank := by
  intro t k h
  cases h

namespace Ordered
variable [DecidableEq τ]

theorem resume (h : l.Ordered rank) (t : τ) : (l.resume t).Ordered rank := by
  intro u k hk m hm
  rw [waiting_resume] at hk
  split at hk
  · cases hk
  · exact h u k hk m hm

theorem acquire [DecidableEq κ] (h : l.Ordered rank) (t : τ) (k : κ) :
    (l.acquire t k).Ordered rank := by
  intro u k' hk m hm
  rw [waiting_acquire, waiting_resume] at hk
  rw [holder_acquire] at hm
  split at hk
  · cases hk
  · rename_i hu
    split at hm
    · exact absurd (Option.some.inj hm).symm hu
    · exact h u k' hk m hm

/-- Only a wait has to keep to the order. -/
theorem wait (h : l.Ordered rank) (hk : ∀ m, l.holder m = some t → rank m < rank k) :
    (l.wait t k).Ordered rank := by
  intro u k' hk' m hm
  rw [waiting_wait] at hk'
  split at hk'
  · rename_i hu
    obtain rfl := Option.some.inj hk'
    exact hk m (hu ▸ hm)
  · exact h u k' hk' m hm

theorem release (h : l.Ordered rank) (t : τ) : (l.release t).Ordered rank := by
  intro u k hk m hm
  exact h.resume t u k hk m (holder_release hm).1

end Ordered

end LockTable

end Lib
