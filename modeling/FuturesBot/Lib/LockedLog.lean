import FuturesBot.Lib.Runs

namespace Lib

/-- A log whose writers append under an exclusive lock. -/
structure LockedLog (ι : Type u) (α : Type v) where
  entries : List α
  holder : Option ι

namespace LockedLog

variable {ι : Type u} {α : Type v}

/-- A writer takes the free lock, decides under it by the last entry, and gives the
lock back with its entry or without one. -/
inductive Step (admits : ι → Option α → α → Prop) : LockedLog ι α → LockedLog ι α → Prop
  | acquire {l : LockedLog ι α} (i : ι) (h : l.holder = none) :
      Step admits l { l with holder := some i }
  | append {l : LockedLog ι α} {i : ι} {a : α} (h : l.holder = some i)
      (ha : admits i l.entries.getLast? a) : Step admits l ⟨l.entries ++ [a], none⟩
  | release {l : LockedLog ι α} {i : ι} (h : l.holder = some i) :
      Step admits l { l with holder := none }
  | idle (l : LockedLog ι α) : Step admits l l

variable {admits : ι → Option α → α → Prop} {l l' : LockedLog ι α}

/-- No writer appends after an entry of this kind. -/
def Final (admits : ι → Option α → α → Prop) (final : α → Prop) : Prop :=
  ∀ i a b, final a → ¬admits i (some a) b

/-- An entry of the kind can only be the last one. -/
def FinalIsLast (final : α → Prop) (l : LockedLog ι α) : Prop :=
  ∀ a ∈ l.entries, final a → l.entries.getLast? = some a

theorem FinalIsLast.step (hf : Final admits final) (h : FinalIsLast final l)
    (hs : Step admits l l') : FinalIsLast final l' := by
  cases hs with
  | acquire | release | idle => exact h
  | append _ ha =>
    intro b hb hfb
    rcases List.mem_append.mp hb with hb | hb
    · rw [h b hb hfb] at ha
      exact absurd ha (hf _ _ _ hfb)
    · rw [List.mem_singleton.mp hb, List.getLast?_concat]

/-- Once its last entry is final, the log does not change. -/
theorem Step.entries_of_final (hf : Final admits final) (hl : l.entries.getLast? = some a)
    (ha : final a) (hs : Step admits l l') : l'.entries = l.entries := by
  cases hs with
  | acquire | release | idle => rfl
  | append _ hadm =>
    rw [hl] at hadm
    exact absurd hadm (hf _ _ _ ha)

/-- Every entry was admitted after the one before it. -/
def Admitted (admits : ι → Option α → α → Prop) : List α → Prop :=
  EachAfter (fun before a => ∃ i, admits i before.getLast? a)

theorem Step.admitted (h : Admitted admits l.entries) (hs : Step admits l l') :
    Admitted admits l'.entries := by
  cases hs with
  | acquire | release | idle => exact h
  | append _ ha => exact EachAfter.snoc h ⟨_, ha⟩

/-- Nothing at all comes after a final entry. -/
theorem Admitted.none_after_final {entries : List α} (hf : Final admits final)
    (h : Admitted admits entries) :
    EachAfter (fun before _ => ∀ b ∈ before, ¬final b) entries := by
  induction entries using List.reverseRecOn with
  | nil => exact .nil
  | append_singleton entries a ih =>
    have hentries : Admitted admits entries := by
      intro before b after he
      exact h before b (after ++ [a]) (by rw [he]; simp)
    have hbefore := ih hentries
    refine hbefore.snoc ?_
    intro b hb hfb
    obtain ⟨i, ha⟩ := h entries a [] rfl
    rcases entries.eq_nil_or_concat' with rfl | ⟨before, c, rfl⟩
    · cases hb
    · rw [List.getLast?_concat] at ha
      rcases List.mem_append.mp hb with hb | hb
      · exact hbefore before c [] rfl b hb hfb
      · rw [List.mem_singleton.mp hb] at hfb
        exact hf i c a hfb ha

end LockedLog

end Lib
