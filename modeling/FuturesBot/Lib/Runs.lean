import Mathlib.Algebra.BigOperators.Group.List.Basic
import Mathlib.Data.List.Basic
import Mathlib.Data.List.Induction

namespace Lib

/-- A labelled execution, recording the labels in the order they happened. -/
inductive Run {σ : Type u} {ε : Type v} (step : σ → ε → σ → Prop) : σ → List ε → σ → Prop
  | nil (s : σ) : Run step s [] s
  | snoc {s t u : σ} {es : List ε} {e : ε} :
      Run step s es t → step t e u → Run step s (es ++ [e]) u

/-- The steps of `step` that also meet `ok` in the state they leave. -/
def Guarded (step : σ → ε → σ → Prop) (ok : σ → ε → Prop) (s : σ) (e : ε) (t : σ) : Prop :=
  step s e t ∧ ok s e

/-- The steps of `step`, labelled also with the states around them. -/
def Recorded (step : σ → ε → σ → Prop) (s : σ) (entry : σ × ε × σ) (t : σ) : Prop :=
  entry.1 = s ∧ entry.2.2 = t ∧ step s entry.2.1 t

namespace Run

variable {σ : Type u} {ε : Type v} {step : σ → ε → σ → Prop}

theorem invariant {I : σ → Prop} (hr : Run step s es t) (h0 : I s)
    (hstep : ∀ s e t, I s → step s e t → I t) : I t := by
  induction hr with
  | nil => exact h0
  | snoc _ hs ih => exact hstep _ _ _ ih hs

/-- An invariant that may also mention the labels seen so far. -/
theorem invariant_trace {I : List ε → σ → Prop} (hr : Run step s es t) (h0 : I [] s)
    (hstep : ∀ es s e t, I es s → step s e t → I (es ++ [e]) t) : I es t := by
  induction hr with
  | nil => exact h0
  | snoc _ hs ih => exact hstep _ _ _ _ ih hs

/-- What every step has of its label, every label of a run has. -/
theorem forall_label {P : ε → Prop} (hr : Run step s es t) (h : ∀ s e t, step s e t → P e) :
    ∀ e ∈ es, P e := by
  induction hr with
  | nil => simp
  | snoc _ hs ih =>
    intro e he
    rcases List.mem_append.mp he with he | he
    · exact ih e he
    · rw [List.mem_singleton.mp he]
      exact h _ _ _ hs

/-- Where every step of a run adds and takes what makes the difference in a value, so does the
run. -/
theorem balance {M : Type*} [AddCommMonoid M] {v : σ → M} {a b : ε → M} (hr : Run step s es t)
    (h : ∀ e ∈ es, ∀ s t, step s e t → v s + a e = b e + v t) :
    v s + (es.map a).sum = (es.map b).sum + v t := by
  induction hr with
  | nil => simp
  | @snoc t u es e _ hs ih =>
    have hrest := ih fun e' he' => h e' (List.mem_append_left _ he')
    have hlast := h e (List.mem_append_right _ (List.mem_singleton_self e)) t u hs
    simp only [List.map_append, List.map_cons, List.map_nil, List.sum_append, List.sum_singleton]
    rw [← add_assoc, hrest, add_assoc, hlast, add_assoc]

theorem mono {step' : σ → ε → σ → Prop} (h : ∀ s e t, step s e t → step' s e t)
    (hr : Run step s es t) : Run step' s es t := by
  induction hr with
  | nil => exact .nil _
  | snoc _ hs ih => exact .snoc ih (h _ _ _ hs)

theorem cons (hs : step s e t) (hr : Run step t es u) : Run step s (e :: es) u := by
  induction hr with
  | nil => exact .snoc (.nil _) hs
  | snoc _ h ih => exact .snoc ih h

/-- A run of a step function whose events are allowed wherever it is. -/
theorem of_foldlM {f : σ → ε → Option σ} {ok : σ → ε → Prop} (hok : ∀ e ∈ es, ∀ s, ok s e)
    (h : es.foldlM f s = some t) : Run (Guarded (fun s e t => f s e = some t) ok) s es t := by
  induction es generalizing s with
  | nil =>
    obtain rfl := Option.some.inj h
    exact .nil _
  | cons e es ih =>
    obtain ⟨u, hu, h⟩ := Option.bind_eq_some_iff.mp h
    refine .cons ⟨hu, hok e List.mem_cons_self s⟩ (ih ?_ h)
    intro e' he'
    exact hok e' (List.mem_cons_of_mem e he')

theorem append (hr : Run step s es t) (hr' : Run step t es' u) : Run step s (es ++ es') u := by
  induction hr' with
  | nil => simpa using hr
  | snoc _ h ih => simpa [List.append_assoc] using Run.snoc ih h

theorem of_snoc (hr : Run step s (es ++ [e]) u) : ∃ t, Run step s es t ∧ step t e u := by
  generalize hl : es ++ [e] = l at hr
  cases hr with
  | nil => simp at hl
  | snoc hr hs =>
    obtain ⟨rfl, he⟩ := List.append_inj' hl rfl
    cases he
    exact ⟨_, hr, hs⟩

theorem of_append (hr : Run step s (es ++ es') u) : ∃ t, Run step s es t ∧ Run step t es' u := by
  induction es' using List.reverseRecOn generalizing u with
  | nil =>
    rw [List.append_nil] at hr
    exact ⟨u, hr, .nil u⟩
  | append_singleton es' e ih =>
    rw [← List.append_assoc] at hr
    obtain ⟨v, hr, hs⟩ := hr.of_snoc
    obtain ⟨t, hfirst, hrest⟩ := ih hr
    exact ⟨t, hfirst, hrest.snoc hs⟩

/-- Removing the guard from every step of a guarded run. -/
theorem unguard {ok : σ → ε → Prop} (hr : Run (Guarded step ok) s es t) : Run step s es t :=
  hr.mono (fun _ _ _ h => h.1)

/-- A run whose steps all keep `I` is a run whose steps are all allowed, where a step keeps `I`
just when it is allowed. `J` is what may be assumed of the states on the way. -/
theorem keeps_iff {I J : σ → Prop} {ok : σ → ε → Prop} (hJ0 : J s) (hI0 : I s)
    (hJ : ∀ s e t, J s → step s e t → J t)
    (hI : ∀ s e t, J s → I s → step s e t → (I t ↔ ok s e)) :
    Run (fun s e t => step s e t ∧ I t) s es u ↔ Run (Guarded step ok) s es u := by
  constructor
  · intro hr
    have hall : J u ∧ I u ∧ Run (Guarded step ok) s es u := by
      induction hr with
      | nil => exact ⟨hJ0, hI0, .nil _⟩
      | snoc _ hs ih =>
        have hok := (hI _ _ _ ih.1 ih.2.1 hs.1).mp hs.2
        exact ⟨hJ _ _ _ ih.1 hs.1, hs.2, ih.2.2.snoc ⟨hs.1, hok⟩⟩
    exact hall.2.2
  · intro hr
    have hall : J u ∧ I u ∧ Run (fun s e t => step s e t ∧ I t) s es u := by
      induction hr with
      | nil => exact ⟨hJ0, hI0, .nil _⟩
      | snoc _ hs ih =>
        have hkept := (hI _ _ _ ih.1 ih.2.1 hs.1).mpr hs.2
        exact ⟨hJ _ _ _ ih.1 hs.1, hkept, ih.2.2.snoc ⟨hs.1, hkept⟩⟩
    exact hall.2.2

/-- What every step does, every recorded step of a run has done. -/
theorem each {P : σ → ε → σ → Prop} (hr : Run (Recorded step) s trace t)
    (h : ∀ s e t, step s e t → P s e t) : ∀ entry ∈ trace, P entry.1 entry.2.1 entry.2.2 := by
  induction hr with
  | nil => simp
  | snoc _ hs ih =>
    intro entry hm
    rcases List.mem_append.mp hm with hm | hm
    · exact ih entry hm
    · obtain ⟨rfl, rfl, hs⟩ := hs
      rw [List.mem_singleton.mp hm]
      exact h _ _ _ hs

/-- Every step of a run is good exactly if every one is allowed, where a step between states
with `J` and `I` is good just when it is allowed and a good step leads to `I`. -/
theorem each_iff {I J : σ → Prop} (hr : Run (Recorded step) s trace u)
    (good ok : σ → ε → σ → Prop) (hJ0 : J s) (hI0 : I s) (hJ : ∀ s e t, J s → step s e t → J t)
    (hI : ∀ s e t, good s e t → I t)
    (h : ∀ s e t, J s → I s → step s e t → (good s e t ↔ ok s e t)) :
    (∀ entry ∈ trace, good entry.1 entry.2.1 entry.2.2) ↔
      ∀ entry ∈ trace, ok entry.1 entry.2.1 entry.2.2 := by
  have hall : J u ∧ ((∀ entry ∈ trace, good entry.1 entry.2.1 entry.2.2) → I u) ∧
      ((∀ entry ∈ trace, good entry.1 entry.2.1 entry.2.2) ↔
        ∀ entry ∈ trace, ok entry.1 entry.2.1 entry.2.2) := by
    induction hr with
    | nil => exact ⟨hJ0, fun _ => hI0, by simp⟩
    | snoc _ hs ih =>
      obtain ⟨rfl, rfl, hs⟩ := hs
      obtain ⟨hj, hi, hiff⟩ := ih
      simp only [List.forall_mem_append, List.forall_mem_singleton]
      refine ⟨hJ _ _ _ hj hs, fun hgood => hI _ _ _ hgood.2, ?_⟩
      rw [← hiff]
      exact and_congr_right fun hgood => h _ _ _ hj (hi hgood) hs
  exact hall.2.2

/-- A relation that every step of a run stays within, the run stays within. -/
theorem stays {R : σ → σ → Prop} (hr : Run (Recorded step) s trace t) (hrefl : ∀ s, R s s)
    (htrans : ∀ s t u, R s t → R t u → R s u)
    (h : ∀ entry ∈ trace, step entry.1 entry.2.1 entry.2.2 → R entry.1 entry.2.2) : R s t := by
  induction hr with
  | nil => exact hrefl _
  | snoc _ hs ih =>
    obtain ⟨rfl, rfl, hs⟩ := hs
    refine htrans _ _ _ (ih ?_) (h _ (by simp) hs)
    intro entry hm
    exact h entry (List.mem_append_left _ hm)

end Run

/-- The sum over some of the entries of a list. -/
theorem sum_map_filter {M : Type*} [AddCommMonoid M] {α : Type u} (p : α → Prop)
    [DecidablePred p] (f : α → M) (l : List α) :
    ((l.filter p).map f).sum = (l.map fun x => if p x then f x else 0).sum := by
  rw [List.sum_map_ite, List.map_const', List.sum_replicate, nsmul_zero, add_zero]

/-- Every entry of a history is allowed after what came before it. -/
def EachAfter {α : Type u} (allowed : List α → α → Prop) (history : List α) : Prop :=
  ∀ before a after, history = before ++ a :: after → allowed before a

namespace EachAfter

variable {α : Type u} {allowed : List α → α → Prop} {history : List α}

theorem nil : EachAfter allowed [] := by
  intro before a after h
  simp at h

theorem snoc (h : EachAfter allowed history) (ha : allowed history a) :
    EachAfter allowed (history ++ [a]) := by
  intro before b after he
  rcases List.eq_nil_or_concat after with rfl | ⟨after, c, rfl⟩
  · obtain ⟨rfl, hab⟩ := List.append_inj' he rfl
    cases hab
    exact ha
  · have he' : history ++ [a] = (before ++ b :: after) ++ [c] := by simpa using he
    obtain ⟨hh, _⟩ := List.append_inj' he' rfl
    exact h _ _ _ hh

/-- The last entry apart from the history before it. -/
theorem of_snoc (h : EachAfter allowed (history ++ [a])) :
    EachAfter allowed history ∧ allowed history a := by
  refine ⟨?_, h history a [] rfl⟩
  intro before b after he
  exact h before b (after ++ [a]) (by rw [he, List.append_assoc]; rfl)

/-- Entries that are allowed after anything may follow. -/
theorem append (h : EachAfter allowed history) (hl : ∀ a ∈ later, ∀ before, allowed before a) :
    EachAfter allowed (history ++ later) := by
  induction later using List.reverseRecOn with
  | nil => simpa using h
  | append_singleton later a ih =>
    rw [← List.append_assoc]
    refine (ih ?_).snoc (hl a (by simp) _)
    intro b hb
    exact hl b (List.mem_append_left _ hb)

end EachAfter

end Lib
