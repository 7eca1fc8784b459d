import FuturesBot.Control.Workers
import Mathlib.Data.List.Perm.Subperm
import Mathlib.Logic.Relation

namespace FuturesBot
open Lib

namespace Fleet

variable {ω : Type u} {f g : Fleet ω}

/-- The next statement of the worker cannot go on before the transaction of another one ends. -/
def WaitsFor (f : Fleet ω) (w v : ω) : Prop :=
  v ≠ w ∧ match f.worker w with
    | .begun (.closing _ (r :: _) _) | .begun (.done r _) => r ∈ (f.worker v).locks
    | .begun (.closing _ [] updated) =>
      (f.worker v).inserted ∨ ∃ r ∈ f.table.running, r ∉ updated ∧ r ∈ (f.worker v).locks
    | _ => False

/-- No start has more than one run to close. -/
def Brief (f : Fleet ω) : Prop := ∀ w known, (f.worker w).found = some known → known.length ≤ 1

theorem Owned.running_length (h : f.Owned) : f.table.running.length ≤ 1 := by
  have hnodup : f.table.running.Nodup := List.nodup_range.filter _
  have hsub : f.table.running ⊆ [f.table.size - 1] := by
    intro r hr
    have hnew := h.newest r hr
    rw [List.mem_singleton]
    omega
  exact (hnodup.subperm hsub).length_le

theorem Brief.fresh (t : RunTable) : (Fleet.fresh t : Fleet ω).Brief := by
  intro w known h
  cases h

/-- How many may have to be waited for, one after the other. -/
def rank (f : Fleet ω) (w : ω) : ℕ :=
  match f.worker w with
  | .begun (.closing _ [] updated) => if f.table.running.all (· ∈ updated) then 1 else 2
  | .begun (.closing _ (_ :: _) _) | .begun (.done _ _) => 3
  | _ => 0

/-- What holds the row of a run has no other one to close. -/
theorem Brief.rank_of_lock (h : f.Brief) (hr : r ∈ (f.worker w).locks) : f.rank w ≤ 2 := by
  have hfound := h w
  unfold rank
  generalize f.worker w = p at hr hfound
  split
  · split <;> omega
  · rename_i c m pending updated
    have hlength := hfound _ rfl
    have hupdated : 0 < updated.length := List.length_pos_of_mem hr
    simp only [List.length_append, List.length_cons] at hlength
    omega
  · cases hr
  · omega

/-- What holds the row of the running run does not wait for another row. -/
theorem Owned.rank_of_lock (h : f.Owned) (hbrief : f.Brief) (hrunning : r ∈ f.table.running)
    (hr : r ∈ (f.worker w).locks) : f.rank w ≤ 1 := by
  have hfound := hbrief w
  unfold rank
  generalize f.worker w = p at hr hfound
  split
  · rename_i c updated
    have hall : f.table.running.all (· ∈ updated) = true := by
      refine List.all_eq_true.mpr fun m hm => ?_
      rw [h.newest.eq hm hrunning]
      exact decide_eq_true hr
    rw [if_pos hall]
  · rename_i c m pending updated
    have hlength := hfound _ rfl
    have hupdated : 0 < updated.length := List.length_pos_of_mem hr
    simp only [List.length_append, List.length_cons] at hlength
    omega
  · cases hr
  · omega

theorem rank_of_inserted (h : (f.worker w).inserted) : f.rank w = 0 := by
  unfold rank
  generalize f.worker w = p at h
  split
  · exact h.elim
  · exact h.elim
  · exact h.elim
  · rfl

/-- Every wait is for one with fewer waits ahead. -/
theorem Owned.rank_lt (h : f.Owned) (hbrief : f.Brief) (hw : f.WaitsFor w v) :
    f.rank v < f.rank w := by
  obtain ⟨-, hw⟩ := hw
  split at hw
  · rename_i c r pending updated hphase
    have hrank : f.rank w = 3 := by rw [rank, hphase]
    rw [hrank]
    exact Nat.lt_succ_of_le (hbrief.rank_of_lock hw)
  · rename_i r c hphase
    have hrank : f.rank w = 3 := by rw [rank, hphase]
    rw [hrank]
    exact Nat.lt_succ_of_le (hbrief.rank_of_lock hw)
  · rename_i c updated hphase
    have hrank : f.rank w = if f.table.running.all (· ∈ updated) then 1 else 2 := by
      rw [rank, hphase]
    rw [hrank]
    rcases hw with hinserted | ⟨r, hrunning, hopen, hlock⟩
    · rw [rank_of_inserted hinserted]
      split <;> decide
    · have hnot : ¬f.table.running.all (· ∈ updated) = true := fun hall =>
        hopen (of_decide_eq_true (List.all_eq_true.mp hall r hrunning))
      rw [if_neg hnot]
      exact Nat.lt_succ_of_le (h.rank_of_lock hbrief hrunning hlock)
  · exact hw.elim

theorem Owned.rank_lt_of_chain (h : f.Owned) (hbrief : f.Brief)
    (hchain : Relation.TransGen f.WaitsFor w v) : f.rank v < f.rank w := by
  induction hchain with
  | single hw => exact h.rank_lt hbrief hw
  | tail _ hw ih => exact (h.rank_lt hbrief hw).trans ih

/-- A row that is not free is held by another worker. -/
theorem exists_of_not_free (h : ¬f.FreeFor w r) : ∃ v, v ≠ w ∧ r ∈ (f.worker v).locks := by
  unfold FreeFor at h
  push Not at h
  exact h

variable [DecidableEq ω]

theorem Brief.step {e : FleetEvent ω} (h : f.Brief) (ho : f.Owned) (hs : FleetStep f e g) :
    g.Brief := by
  intro w known hfound
  by_cases hactor : e.worker = some w
  · cases hs with
    | trigger => cases hactor
    | selectOrphans =>
      obtain rfl := Option.some.inj hactor
      simp only [put, Function.update_self, WorkerPhase.found, List.append_nil] at hfound
      obtain rfl := Option.some.inj hfound
      exact ho.running_length
    | @closeOrphan v c r pending updated hw =>
      obtain rfl := Option.some.inj hactor
      simp only [put, Function.update_self, WorkerPhase.found] at hfound
      obtain rfl := Option.some.inj hfound
      have hlength := h _ (r :: pending ++ updated) (by rw [hw]; rfl)
      simp only [List.length_append, List.length_cons] at hlength ⊢
      omega
    | insertRun hw =>
      obtain rfl := Option.some.inj hactor
      simp only [put, Function.update_self, WorkerPhase.found] at hfound
      obtain rfl := Option.some.inj hfound
      exact h _ _ (by rw [hw]; rfl)
    | conflict =>
      obtain rfl := Option.some.inj hactor
      simp only [put, Function.update_self, WorkerPhase.found] at hfound
      obtain rfl := Option.some.inj hfound
      exact Nat.zero_le 1
    | commitStart | commitClose | boot | findPrevious | readState | refuse | reraise | flushClose
    | kill =>
      obtain rfl := Option.some.inj hactor
      simp only [put, Function.update_self] at hfound
      cases hfound
  · rw [worker_of_step hs hactor] at hfound
    exact h w known hfound

/-- The worker can make a step of its own, other than to die. -/
def CanGoOn (f : Fleet ω) (w : ω) : Prop :=
  ∃ e g, FleetStep f e g ∧ e.worker = some w ∧ e ≠ .killed w

theorem CanGoOn.of_quiet (hs : FleetStep f (.quiet w) g) : f.CanGoOn w := ⟨_, g, hs, rfl, nofun⟩

/-- An insertion goes through, or is rejected, or has to wait. -/
theorem insertion_waits_or_goes_on (hw : f.worker w = .begun (.closing c [] updated)) :
    (∃ v, f.WaitsFor w v) ∨ f.CanGoOn w := by
  by_cases halone : ∀ v, ¬(f.worker v).inserted
  · by_cases hclosed : ∀ r ∈ f.table.running, r ∈ updated
    · exact .inr (.of_quiet (.insertRun hw halone hclosed))
    · push Not at hclosed
      obtain ⟨r, hrunning, hopen⟩ := hclosed
      by_cases hfree : f.FreeFor w r
      · exact .inr (.of_quiet (.conflict hw hrunning hopen hfree))
      · obtain ⟨v, hne, hlock⟩ := exists_of_not_free hfree
        refine .inl ⟨v, hne, ?_⟩
        rw [hw]
        exact .inr ⟨r, hrunning, hopen, hlock⟩
  · push Not at halone
    obtain ⟨v, hinserted⟩ := halone
    refine .inl ⟨v, ?_, ?_⟩
    · rintro rfl
      rw [hw] at hinserted
      exact hinserted
    · rw [hw]
      exact .inl hinserted

theorem waits_or_goes_on (f : Fleet ω) (w : ω) : (∃ v, f.WaitsFor w v) ∨ f.CanGoOn w := by
  cases hw : f.worker w with
  | absent => exact .inr (.of_quiet (.boot hw))
  | conflicted updated =>
    cases hactive : f.table.getActive updated with
    | none => exact .inr ⟨_, _, .reraise hw hactive, rfl, nofun⟩
    | some active => exact .inr ⟨_, _, .refuse hw hactive, rfl, nofun⟩
  | closing r => exact .inr ⟨_, _, .commitClose hw, rfl, nofun⟩
  | begun phase =>
    cases phase with
    | begin => exact .inr (.of_quiet (.findPrevious hw))
    | foundPrevious previous => exact .inr (.of_quiet (.readState hw))
    | resolved c => exact .inr ⟨_, _, .selectOrphans hw, rfl, nofun⟩
    | inserted c updated => exact .inr ⟨_, _, .commitStart hw, rfl, nofun⟩
    | done r c =>
      by_cases hfree : f.FreeFor w r
      · exact .inr (.of_quiet (.flushClose hw hfree))
      · obtain ⟨v, hne, hlock⟩ := exists_of_not_free hfree
        refine .inl ⟨v, hne, ?_⟩
        rw [hw]
        exact hlock
    | closing c pending updated =>
      cases pending with
      | nil => exact insertion_waits_or_goes_on hw
      | cons r pending =>
        by_cases hfree : f.FreeFor w r
        · exact .inr (.of_quiet (.closeOrphan hw hfree))
        · obtain ⟨v, hne, hlock⟩ := exists_of_not_free hfree
          refine .inl ⟨v, hne, ?_⟩
          rw [hw]
          exact hlock

/-- Starts and shutdowns of workers cannot deadlock: nobody waits for itself by way of others, and
whoever does not wait for another worker can go on. -/
theorem workers_never_deadlock (t : RunTable) (ht : t.NewestRuns) (es : List (FleetEvent ω))
    (f : Fleet ω) (hr : Run FleetStep (Fleet.fresh t) es f) :
    (∀ w, ¬Relation.TransGen f.WaitsFor w w) ∧ ∀ w, (∃ v, f.WaitsFor w v) ∨ f.CanGoOn w := by
  have hall : f.Owned ∧ f.Brief := by
    refine hr.invariant (I := fun f => f.Owned ∧ f.Brief) ⟨.fresh ht, .fresh t⟩ ?_
    rintro f e g ⟨ho, hb⟩ hs
    exact ⟨ho.step hs, hb.step ho hs⟩
  refine ⟨fun w hcycle => ?_, f.waits_or_goes_on⟩
  exact lt_irrefl _ (hall.1.rank_lt_of_chain hall.2 hcycle)

theorem rolled_never_deadlocks : (∀ w, ¬Relation.TransGen Rolling.rolled.WaitsFor w w) ∧
    ∀ w, (∃ v, Rolling.rolled.WaitsFor w v) ∨ Rolling.rolled.CanGoOn w :=
  workers_never_deadlock crashedTable crashedTable_newest Rolling.trace Rolling.rolled Rolling.run

end Fleet

end FuturesBot
