import FuturesBot.Lib.Runs
import Mathlib.Algebra.Ring.Nat
import Mathlib.Order.Lattice

namespace Lib

variable {ε : Type u} {κ : Type v} {M : Type*}

/-- What a total that begins anew in every period has come to before an entry of the period
`k`. What it starts from belongs to the first period. -/
def periodTotal [DecidableEq κ] [AddCommMonoid M] (period : ε → κ) (weight : ε → M) (start : M)
    (before : List ε) (k : κ) : M :=
  (if ∀ first ∈ before.head?, period first = k then start else 0) +
    ((before.filter (period · = k)).map weight).sum

/-- Nothing has been added up where an entry begins a new period. -/
def AnewAt [AddCommMonoid M] (period : ε → κ) (weight : ε → M) (start : M) (before : List ε)
    (e : ε) : Prop :=
  ∀ last ∈ before.getLast?, period last ≠ period e → start + (before.map weight).sum = 0

/-- The sum over the entries that give a value. -/
theorem sum_filterMap [AddMonoid M] (f : ε → Option M) (l : List ε) :
    (l.filterMap f).sum = (l.map fun e => (f e).getD 0).sum := by
  induction l with
  | nil => rfl
  | cons e l ih =>
    rw [List.filterMap_cons, List.map_cons, List.sum_cons, ← ih]
    cases f e with
    | none => simp
    | some x => simp

namespace EachAfter

variable {α : Type u} {β : Type v} {history : List α}

theorem snoc_iff {allowed : List α → α → Prop} :
    EachAfter allowed (history ++ [a]) ↔ EachAfter allowed history ∧ allowed history a :=
  ⟨of_snoc, fun h => h.1.snoc h.2⟩

theorem congr {P Q : List α → α → Prop} (h : EachAfter (fun before a => P before a ↔ Q before a)
    history) : EachAfter P history ↔ EachAfter Q history := by
  constructor
  · intro hp before a after he
    exact (h before a after he).mp (hp before a after he)
  · intro hq before a after he
    exact (h before a after he).mpr (hq before a after he)

theorem map_iff {allowed : List β → β → Prop} (f : α → β) :
    EachAfter allowed (history.map f) ↔
      EachAfter (fun before a => allowed (before.map f) (f a)) history := by
  induction history using List.reverseRecOn with
  | nil => exact ⟨fun _ => .nil, fun _ => .nil⟩
  | append_singleton history a ih =>
    rw [List.map_append, List.map_singleton, snoc_iff, snoc_iff, ih]

end EachAfter

section
variable [AddCommMonoid M] {period : ε → κ} {weight : ε → M} {start : M} {history : List ε}

/-- Within its period a total goes on from the entry before. -/
theorem periodTotal_snoc [DecidableEq κ] (period : ε → κ) (weight : ε → M) (start : M)
    (before : List ε) (e : ε) : periodTotal period weight start (before ++ [e]) (period e) =
      periodTotal period weight start before (period e) + weight e := by
  have hfirst : (∀ first ∈ (before ++ [e]).head?, period first = period e) ↔
      ∀ first ∈ before.head?, period first = period e := by
    cases before <;> simp
  simp only [periodTotal, hfirst, List.filter_append, List.map_append, List.sum_append]
  simp [add_assoc]

/-- Before the first entry of a new period its total is nothing. -/
theorem periodTotal_anew [DecidableEq κ] (hne : history ≠ [])
    (h : ∀ e ∈ history, period e ≠ k) : periodTotal period weight start history k = 0 := by
  have hfirst : ¬∀ first ∈ history.head?, period first = k := by
    intro hall
    exact h _ (List.head_mem hne) (hall _ (List.head?_eq_some_head hne))
  have hnone : history.filter (period · = k) = [] := by
    rw [List.filter_eq_nil_iff]
    intro e he
    simpa using h e he
  rw [periodTotal, if_neg hfirst, hnone]
  simp

/-- In the order of the periods, an entry of a new period is alone in it. -/
theorem ne_of_last_ne [LinearOrder κ] {earlier : List ε} {last e : ε}
    (h : (earlier ++ [last, e]).Pairwise (period · ≤ period ·)) (hne : period last ≠ period e) :
    ∀ other ∈ earlier ++ [last], period other ≠ period e := by
  rw [List.pairwise_append] at h
  have hlast_le : period last ≤ period e := by simpa using h.2.1
  intro other hm hother
  rcases List.mem_append.mp hm with hm | hm
  · have hother_le : period other ≤ period last := h.2.2 other hm last List.mem_cons_self
    exact hne (le_antisymm hlast_le (hother ▸ hother_le))
  · rw [List.mem_singleton.mp hm] at hother
    exact hne hother

/-- A running total over entries in the order of their periods is at every one of them the
total of its period exactly if it is nothing wherever a period begins. -/
theorem running_eq_periodTotal_iff [LinearOrder κ] (h : history.Pairwise (period · ≤ period ·)) :
    EachAfter (fun before e => start + (before.map weight).sum =
      periodTotal period weight start before (period e)) history ↔
    EachAfter (AnewAt period weight start) history := by
  induction history using List.reverseRecOn with
  | nil => exact ⟨fun _ => .nil, fun _ => .nil⟩
  | append_singleton history e ih =>
    have ih := ih (List.pairwise_append.mp h).1
    rw [EachAfter.snoc_iff, EachAfter.snoc_iff, ih]
    refine and_congr_right fun hbefore => ?_
    rcases List.eq_nil_or_concat history with rfl | ⟨earlier, last, hl⟩
    · simp [periodTotal, AnewAt]
    rw [List.concat_eq_append] at hl
    subst hl
    by_cases hsame : period last = period e
    · -- the total of the period goes on, and the running one is no different from it
      have hlast : start + (earlier.map weight).sum =
          periodTotal period weight start earlier (period last) :=
        (EachAfter.snoc_iff.mp (ih.mpr hbefore)).2
      have hgoes : start + ((earlier ++ [last]).map weight).sum =
          periodTotal period weight start (earlier ++ [last]) (period e) := by
        rw [← hsame, periodTotal_snoc, ← hlast]
        simp [add_assoc]
      exact iff_of_true hgoes (by simp [AnewAt, hsame])
    · have hnew := ne_of_last_ne (by simpa using h) hsame
      rw [periodTotal_anew (by simp) hnew]
      simp [AnewAt, hsame]

end

/-- A run whose labels are all allowed. -/
theorem Run.guard {step : σ → ε → σ → Prop} {ok : ε → Prop} (hr : Run step s es t)
    (h : ∀ e ∈ es, ok e) : Run (Guarded step fun _ e => ok e) s es t := by
  induction hr with
  | nil => exact .nil _
  | snoc _ hs ih =>
    refine .snoc (ih fun e he => h e (List.mem_append_left _ he)) ⟨hs, h _ ?_⟩
    exact List.mem_append_right _ (List.mem_singleton_self _)

end Lib
