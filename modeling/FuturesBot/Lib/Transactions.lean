import FuturesBot.Lib.Runs
import Mathlib.Order.Nat

namespace Lib

/-- A session on a database: what it sees itself, what it has committed, and how often
it has done so. -/
structure Store (α : Type u) where
  working : α
  committed : α
  commits : ℕ

namespace Store

variable {α : Type u} {s t u : Store α} {a : α} {n : ℕ}

def commit (s : Store α) : Store α := ⟨s.working, s.working, s.commits + 1⟩

def write (b : α) (s : Store α) : Store α := { s with working := b }

def rollback (s : Store α) : Store α := { s with working := s.committed }

/-- Rolls back to a savepoint, which a commit in between has released. -/
def rollbackTo (s saved : Store α) : Store α :=
  if s.commits = saved.commits then { s with working := saved.working } else s

variable [Preorder α]

/-- Whatever `s` sees is still there in `t`, and stored if there has been a commit. -/
structure Keeps (s t : Store α) : Prop where
  commits_le : s.commits ≤ t.commits
  working : s.working ≤ t.working
  committed : if s.commits = t.commits then t.committed = s.committed else s.working ≤ t.committed

/-- `a`, which was written after `n` commits, is still there, and stored if there has
been a commit since. -/
structure Holds (n : ℕ) (a : α) (s : Store α) : Prop where
  working : a ≤ s.working
  committed : n < s.commits → a ≤ s.committed

namespace Keeps

theorem refl (s : Store α) : Keeps s s := ⟨le_rfl, le_rfl, by rw [if_pos rfl]⟩

/-- A store with a commit since then. -/
theorem of_commit (hc : s.commits < t.commits) (hw : s.working ≤ t.working)
    (hs : s.working ≤ t.committed) : Keeps s t :=
  ⟨hc.le, hw, by rw [if_neg hc.ne]; exact hs⟩

theorem trans (h : Keeps s t) (h' : Keeps t u) : Keeps s u := by
  have hw : s.working ≤ u.working := h.working.trans h'.working
  have hst := h.committed
  have htu := h'.committed
  rcases h'.commits_le.eq_or_lt with he | hlt
  · rw [if_pos he] at htu
    refine ⟨h.commits_le.trans he.le, hw, ?_⟩
    rw [htu, ← he]
    exact hst
  · rw [if_neg hlt.ne] at htu
    exact .of_commit (h.commits_le.trans_lt hlt) hw (h.working.trans htu)

theorem commit (s : Store α) : Keeps s s.commit := .of_commit (Nat.lt_succ_self _) le_rfl le_rfl

theorem write (h : s.working ≤ a) : Keeps s (s.write a) := ⟨le_rfl, h, by simp [Store.write]⟩

theorem rollbackTo (h : Keeps s t) : Keeps s (t.rollbackTo s) := by
  unfold Store.rollbackTo
  split
  · rename_i he
    have hc := h.committed
    rw [if_pos he.symm] at hc
    exact ⟨h.commits_le, le_rfl, by rw [if_pos he.symm]; exact hc⟩
  · exact h

/-- A rollback keeps exactly what has been committed. -/
theorem rollback_iff : Keeps s s.rollback ↔ s.working ≤ s.committed := by
  constructor
  · intro h
    exact h.working
  · intro h
    exact ⟨le_rfl, h, by simp [Store.rollback]⟩

end Keeps

namespace Holds

/-- What a session sees is held. -/
theorem start (s : Store α) : Holds s.commits s.working s :=
  ⟨le_rfl, fun h => absurd h (lt_irrefl _)⟩

theorem keeps (h : Holds n a s) (hk : Keeps s t) : Holds n a t := by
  refine ⟨h.working.trans hk.working, ?_⟩
  intro hn
  have hc := hk.committed
  split at hc
  · rename_i he
    rw [hc]
    exact h.committed (hn.trans_eq he.symm)
  · exact h.working.trans hc

/-- Rows written under a savepoint outlast a rollback to it exactly when a commit has
come after them. -/
theorem rollbackTo_iff (h : Holds s.commits a t) (hk : Keeps s t) (ha : ¬a ≤ s.working) :
    Holds s.commits a (t.rollbackTo s) ↔ s.commits < t.commits := by
  unfold Store.rollbackTo
  constructor
  · intro hh
    refine lt_of_le_of_ne hk.commits_le ?_
    intro he
    rw [if_pos he.symm] at hh
    exact ha hh.working
  · intro hlt
    rw [if_neg hlt.ne']
    exact h

end Holds

end Store

end Lib
