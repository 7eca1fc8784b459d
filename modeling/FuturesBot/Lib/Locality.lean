import Mathlib.Algebra.Group.Basic
import Mathlib.Data.List.Basic
import Mathlib.Tactic.Abel

namespace Lib

/-- A state in parts, one for each index, with an account that all of them add to. -/
structure Parts (ι : Type u) (σ : Type v) (M : Type w) where
  same : ι → σ → σ → Prop
  account : σ → M
  equivalence : ∀ i, Equivalence (same i)

namespace Parts

variable {ι : Type u} {σ : Type v} {M : Type w} {P : Parts ι σ M} {i j : ι}

theorem same_refl (P : Parts ι σ M) (i : ι) (s : σ) : P.same i s s := (P.equivalence i).refl s

theorem same_symm (h : P.same i s t) : P.same i t s := (P.equivalence i).symm h

theorem same_trans (h : P.same i s t) (h' : P.same i t u) : P.same i s u :=
  (P.equivalence i).trans h h'

/-- The same state next to something of its own for each part. -/
def along (P : Parts ι σ M) (τ : Type w') : Parts ι (σ × (ι → τ)) M where
  same i s t := P.same i s.1 t.1 ∧ s.2 i = t.2 i
  account s := P.account s.1
  equivalence i :=
    ⟨fun s => ⟨P.same_refl i s.1, rfl⟩, fun h => ⟨same_symm h.1, h.2.symm⟩,
      fun h h' => ⟨same_trans h.1 h'.1, h.2.trans h'.2⟩⟩

/-- The two operations do the same to a part, if it is the same for both. -/
def Agree (P : Parts ι σ M) (i : ι) (f g : σ → ρ × σ) : Prop :=
  ∀ s t, P.same i s t → (f s).1 = (g t).1 ∧ P.same i (f s).2 (g t).2

namespace Agree

theorem pure (P : Parts ι σ M) (i : ι) (r : ρ) : P.Agree i (fun s => (r, s)) fun s => (r, s) :=
  fun _ _ h => ⟨rfl, h⟩

theorem bind {f f' : σ → ρ × σ} {g g' : ρ → σ → τ × σ} (hf : P.Agree i f f')
    (hg : ∀ r, P.Agree i (g r) (g' r)) :
    P.Agree i (fun s => g (f s).1 (f s).2) fun s => g' (f' s).1 (f' s).2 := by
  intro s t h
  obtain ⟨hresult, hsame⟩ := hf s t h
  dsimp only
  rw [hresult]
  exact hg _ _ _ hsame

/-- What does as a third operation does agrees with whatever else does. -/
theorem of_both {f g k : σ → ρ × σ} (hf : P.Agree i f k) (hg : P.Agree i g k) :
    P.Agree i f g := by
  intro s t h
  obtain ⟨hleft, hl⟩ := hf s t h
  obtain ⟨hright, hr⟩ := hg t t (P.same_refl i t)
  exact ⟨hleft.trans hright.symm, same_trans hl (same_symm hr)⟩

end Agree

/-- In either order, both operations return the same, and come to the same. -/
structure CommuteAt (P : Parts ι σ M) (f : σ → ρ × σ) (g : σ → τ × σ) (s : σ) : Prop where
  first : (f (g s).2).1 = (f s).1
  second : (g (f s).2).1 = (g s).1
  parts : ∀ k, P.same k (f (g s).2).2 (g (f s).2).2
  account : P.account (f (g s).2).2 = P.account (g (f s).2).2

section Local
variable [AddCommGroup M]

/-- An operation that belongs to one part: it leaves the others alone, and what it does to its
own and to the account depends on nothing else. -/
structure LocalAt (P : Parts ι σ M) (i : ι) (f : σ → ρ × σ) : Prop where
  frame : ∀ j, j ≠ i → ∀ s, P.same j s (f s).2
  own : P.Agree i f f
  adds : ∀ s t, P.same i s t →
    P.account (f s).2 - P.account s = P.account (f t).2 - P.account t

namespace LocalAt

theorem pure (P : Parts ι σ M) (i : ι) (r : ρ) : P.LocalAt i fun s => (r, s) where
  frame j _ s := P.same_refl j s
  own := .pure P i r
  adds s t _ := by simp

/-- One after the other, the second as the first has turned out. -/
theorem bind {f : σ → ρ × σ} {g : ρ → σ → τ × σ} (hf : P.LocalAt i f)
    (hg : ∀ r, P.LocalAt i (g r)) : P.LocalAt i fun s => g (f s).1 (f s).2 where
  frame j hj s := same_trans (hf.frame j hj s) ((hg _).frame j hj _)
  own := hf.own.bind fun r => (hg r).own
  adds s t h := by
    obtain ⟨hresult, hsame⟩ := hf.own s t h
    have hfirst := hf.adds s t h
    have hsecond := (hg (f t).1).adds _ _ hsame
    rw [hresult, ← sub_add_sub_cancel _ (P.account (f s).2), hsecond, hfirst,
      sub_add_sub_cancel]

theorem congr {f g : σ → ρ × σ} (h : P.LocalAt i f) (heq : ∀ s, g s = f s) : P.LocalAt i g := by
  rw [funext heq]
  exact h

/-- The same where the first may fail. -/
theorem bindExcept {f : σ → Except ε α × σ} {g : ε → σ → τ × σ} {k : α → σ → τ × σ}
    (hf : P.LocalAt i f) (hg : ∀ e, P.LocalAt i (g e)) (hk : ∀ a, P.LocalAt i (k a)) :
    P.LocalAt i fun s => match f s with
      | (.error e, s) => g e s
      | (.ok a, s) => k a s := by
  have h := hf.bind (g := fun r => match r with
    | .error e => g e
    | .ok a => k a) fun r => by cases r <;> simp only [hg, hk]
  refine h.congr fun s => ?_
  rcases f s with ⟨_ | _, _⟩ <;> rfl

/-- What is there or is not decides between two operations. -/
theorem optional {f : σ → ρ × σ} {g : α → σ → ρ × σ} (hf : P.LocalAt i f)
    (hg : ∀ a, P.LocalAt i (g a)) (o : Option α) :
    P.LocalAt i fun s => o.elim (f s) fun a => g a s := by
  cases o with
  | none => exact hf
  | some a => exact hg a

/-- What an operation returns may be told in other words. -/
theorem map {f : σ → ρ × σ} (hf : P.LocalAt i f) (g : ρ → τ) :
    P.LocalAt i fun s => (g (f s).1, (f s).2) :=
  hf.bind fun r => .pure P i (g r)

/-- What is read off the own part may decide what is done. -/
theorem read {α : Type*} {get : σ → α} {f : α → σ → ρ × σ}
    (hget : ∀ s t, P.same i s t → get s = get t) (hf : ∀ a, P.LocalAt i (f a)) :
    P.LocalAt i fun s => f (get s) s where
  frame j hj s := (hf _).frame j hj s
  own s t h := by
    dsimp only
    rw [hget s t h]
    exact (hf _).own s t h
  adds s t h := by
    rw [hget s t h]
    exact (hf _).adds s t h

/-- Operations on different parts may change places. -/
theorem commute {f : σ → ρ × σ} {g : σ → τ × σ} (hf : P.LocalAt i f) (hg : P.LocalAt j g)
    (h : i ≠ j) (s : σ) : P.CommuteAt f g s := by
  have hi := hg.frame i h s
  have hj := hf.frame j h.symm s
  obtain ⟨hfresult, hfsame⟩ := hf.own _ _ (same_symm hi)
  obtain ⟨hgresult, hgsame⟩ := hg.own _ _ (same_symm hj)
  refine ⟨hfresult, hgresult, fun k => ?_, ?_⟩
  · by_cases hki : k = i
    · subst hki
      exact same_trans hfsame (hg.frame k h _)
    · by_cases hkj : k = j
      · subst hkj
        exact same_trans (same_symm (hf.frame k hki _)) (same_symm hgsame)
      · have hleft := same_trans (hg.frame k hkj s) (hf.frame k hki _)
        have hright := same_trans (hf.frame k hki s) (hg.frame k hkj _)
        exact same_trans (same_symm hleft) hright
  · have hfirst := hf.adds _ _ (same_symm hi)
    have hsecond := hg.adds _ _ (same_symm hj)
    rw [sub_eq_iff_eq_add] at hfirst hsecond
    rw [hfirst, hsecond]
    abel

end LocalAt

/-- An operation on the first of two states, next to which each part has something of its own. -/
theorem LocalAt.along {f : σ → ρ × σ} (h : P.LocalAt i f) (τ : Type w') :
    (P.along τ).LocalAt i fun s => ((f s.1).1, ((f s.1).2, s.2)) where
  frame j hj s := ⟨h.frame j hj s.1, rfl⟩
  own s t hst :=
    have hown := h.own s.1 t.1 hst.1
    ⟨hown.1, hown.2, hst.2⟩
  adds s t hst := h.adds s.1 t.1 hst.1

/-- What a part has of its own may change. -/
theorem LocalAt.update [DecidableEq ι] (P : Parts ι σ M) (i : ι) (f : τ → τ) (r : ρ) :
    (P.along τ).LocalAt i fun s => (r, (s.1, Function.update s.2 i (f (s.2 i)))) where
  frame j hj s := ⟨P.same_refl j s.1, (Function.update_of_ne hj _ s.2).symm⟩
  own s t hst := by
    refine ⟨rfl, hst.1, ?_⟩
    dsimp only
    rw [Function.update_self, Function.update_self, hst.2]
  adds s t _ := by simp [Parts.along]

end Local

/-- Events one after the other, with all that they report. -/
def runAll (step : ε → σ → List ρ × σ) : List ε → σ → List ρ × σ
  | [], s => ([], s)
  | e :: es, s =>
    let (reports, s) := step e s
    let (later, s) := runAll step es s
    (reports ++ later, s)

/-- The operation with only those of its reports that pass. -/
def reporting (p : ρ → Bool) (f : σ → List ρ × σ) (s : σ) : List ρ × σ :=
  ((f s).1.filter p, (f s).2)

/-- Where each event does to a part what its share in it does, a run does what its shares do. -/
theorem runAll_projects {step : ε → σ → List ρ × σ} {p : ρ → Bool} {share : ε → Option κ}
    {stepAt : κ → σ → List ρ × σ} {es : List ε}
    (h : ∀ e ∈ es, P.Agree i (reporting p (step e))
      ((share e).elim (fun s => ([], s)) stepAt)) :
    P.Agree i (reporting p (runAll step es)) (runAll stepAt (es.filterMap share)) := by
  induction es with
  | nil => exact fun _ _ h => ⟨rfl, h⟩
  | cons e es ih =>
    have hrest := ih fun e' he' => h e' (List.mem_cons_of_mem e he')
    have hfirst := h e List.mem_cons_self
    intro s t hst
    obtain ⟨hreports, hsame⟩ := hfirst s t hst
    cases hshare : share e with
    | none =>
      rw [hshare] at hreports hsame
      obtain ⟨hlater, hend⟩ := hrest _ _ hsame
      rw [List.filterMap_cons_none hshare]
      refine ⟨Eq.trans ?_ hlater, hend⟩
      change ((step e s).1 ++ _).filter p = _
      rw [List.filter_append]
      exact (congrArg (· ++ _) hreports).trans (List.nil_append _)
    | some x =>
      rw [hshare] at hreports hsame
      obtain ⟨hlater, hend⟩ := hrest _ _ hsame
      rw [List.filterMap_cons_some hshare]
      refine ⟨?_, hend⟩
      change ((step e s).1 ++ _).filter p = (stepAt x t).1 ++ _
      rw [List.filter_append]
      exact congrArg₂ (· ++ ·) hreports hlater

end Parts

end Lib
