import Mathlib.Data.List.Basic

namespace Lib

variable {α : Type u} {ε : Type v} {σ : Type w}

/-- A loop over a list with the indices of its elements. It ends at the first turn
that raises, with the state that turn leaves. -/
def loop (turn : ℕ → α → σ → Except ε Unit × σ) : ℕ → List α → σ → Except ε Unit × σ
  | _, [], s => (.ok (), s)
  | i, a :: rest, s =>
    match turn i a s with
    | (.error e, s) => (.error e, s)
    | (.ok (), s) => loop turn (i + 1) rest s

variable {turn : ℕ → α → σ → Except ε Unit × σ}

theorem loop_append (turn : ℕ → α → σ → Except ε Unit × σ) (i : ℕ) (l l' : List α) (s : σ) :
    loop turn i (l ++ l') s =
      match loop turn i l s with
      | (.error e, s) => (.error e, s)
      | (.ok (), s) => loop turn (i + l.length) l' s := by
  induction l generalizing i s with
  | nil => rfl
  | cons a l ih =>
    rw [List.cons_append, loop, loop, List.length_cons]
    rcases turn i a s with ⟨e | u, t⟩
    · rfl
    · rw [show i + (l.length + 1) = i + 1 + l.length by omega]
      exact ih (i + 1) t

/-- The first `k + 1` turns are the first `k` and one more. -/
theorem loop_take_succ (turn : ℕ → α → σ → Except ε Unit × σ) (i k : ℕ) {l : List α} {a : α}
    (ha : l[k]? = some a) (s : σ) :
    loop turn i (l.take (k + 1)) s =
      match loop turn i (l.take k) s with
      | (.error e, s) => (.error e, s)
      | (.ok (), s) => turn (i + k) a s := by
  obtain ⟨hk, hget⟩ := List.getElem?_eq_some_iff.mp ha
  have htake : l.take (k + 1) = l.take k ++ [a] := by
    rw [List.take_succ_eq_append_getElem hk, hget]
  rw [htake, loop_append, List.length_take, Nat.min_eq_left (Nat.le_of_lt hk)]
  rcases loop turn i (l.take k) s with ⟨e | u, t⟩
  · rfl
  · dsimp only
    rw [loop]
    rcases turn (i + k) a t with ⟨e | u, t'⟩
    · rfl
    · rfl

/-- What every turn does to the state, if it adds up, is what the loop does. -/
theorem loop_rel {R : σ → σ → Prop} (hrefl : ∀ s, R s s) (htrans : ∀ s t u, R s t → R t u → R s u)
    (l : List α) (hturn : ∀ j a s, i ≤ j → j < i + l.length → R s (turn j a s).2) (s : σ) :
    R s (loop turn i l s).2 := by
  induction l generalizing i s with
  | nil => exact hrefl s
  | cons a l ih =>
    have ha := hturn i a s (Nat.le_refl i) (by simp)
    rw [loop]
    rcases ht : turn i a s with ⟨e | u, t⟩
    · rwa [ht] at ha
    · rw [ht] at ha
      refine htrans _ _ _ ha (ih ?_ t)
      intro j b u hj hlt
      exact hturn j b u (by omega) (by rw [List.length_cons]; omega)

/-- A computation that is seen not to raise returns something. -/
theorem ok_of_isSome {r : Except ε α} (h : r.toOption.isSome = true) : ∃ a, r = .ok a := by
  cases r with
  | error e => cases h
  | ok a => exact ⟨a, rfl⟩

theorem ok_of_map {r : Except ε α} {f : α → β} (h : r.toOption.map f = some b) :
    ∃ a, r = .ok a ∧ f a = b := by
  cases r with
  | error e => cases h
  | ok a => exact ⟨a, rfl, Option.some.inj h⟩

end Lib
