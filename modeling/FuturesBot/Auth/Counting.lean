import FuturesBot.Auth.Throttle

namespace FuturesBot
open LoginTransaction

namespace LoginTables

/-- The number of lockouts that the tables remember of an identity. -/
def lockoutCount (tables : LoginTables) (k : LoginIdentity) : ℕ :=
  (tables.getLockout k).elim 0 (·.lockoutCount)

/-- The rows of an identity are the same in both. -/
structure AgreeAt (k : LoginIdentity) (tables tables' : LoginTables) : Prop where
  failures : ∀ since, tables'.failuresSince k since = tables.failuresSince k since
  lockout : tables'.getLockout k = tables.getLockout k

@[simp] theorem getLockout_insertAttempt (tables : LoginTables) (attempt : LoginAttempt)
    (k : LoginIdentity) : (tables.insertAttempt attempt).getLockout k = tables.getLockout k := rfl

@[simp] theorem getLockout_deleteAttempts (tables : LoginTables) (matching : LoginAttempt → Bool)
    (k : LoginIdentity) : (tables.deleteAttempts matching).getLockout k = tables.getLockout k := rfl

@[simp] theorem getLockout_setLockout (tables : LoginTables) (k : LoginIdentity)
    (lockout : LoginLockout) : (tables.setLockout k lockout).getLockout k = some lockout :=
  Function.update_self _ _ _

@[simp] theorem getLockout_deleteLockouts (tables : LoginTables)
    (matching : LoginIdentity → LoginLockout → Bool) (k : LoginIdentity) :
    (tables.deleteLockouts matching).getLockout k =
      (tables.getLockout k).filter (fun l => !matching k l) := rfl

variable {tables tables' tables'' : LoginTables} {k k' : LoginIdentity}

namespace AgreeAt

theorem refl (k : LoginIdentity) (tables : LoginTables) : AgreeAt k tables tables :=
  ⟨fun _ => rfl, rfl⟩

theorem trans (h : AgreeAt k tables tables') (h' : AgreeAt k tables' tables'') :
    AgreeAt k tables tables'' :=
  ⟨fun since => (h'.failures since).trans (h.failures since), h'.lockout.trans h.lockout⟩

theorem count (h : AgreeAt k tables tables') (since : Timestamp) :
    tables'.countFailuresSince k since = tables.countFailuresSince k since := by
  rw [countFailuresSince, h.failures, countFailuresSince]

theorem lockoutCount (h : AgreeAt k tables tables') :
    tables'.lockoutCount k = tables.lockoutCount k := by
  rw [LoginTables.lockoutCount, h.lockout, LoginTables.lockoutCount]

theorem insertAttempt (h : k ≠ k') (tables : LoginTables) (now : Timestamp) :
    AgreeAt k tables (tables.insertAttempt ⟨k', now⟩) where
  failures since := by simp [failuresSince, LoginTables.insertAttempt, h.symm]
  lockout := rfl

theorem clearAttempts (h : k ≠ k') (tables : LoginTables) :
    AgreeAt k tables (tables.deleteAttempts (fun a => a.identity = k')) where
  failures since := by
    simp only [failuresSince, deleteAttempts, List.filter_filter]
    apply List.filter_congr
    intro a _
    by_cases ha : a.identity = k <;> simp [ha, h]
  lockout := rfl

theorem setLockout (h : k ≠ k') (tables : LoginTables) (lockout : LoginLockout) :
    AgreeAt k tables (tables.setLockout k' lockout) where
  failures _ := rfl
  lockout := Function.update_of_ne h _ _

theorem clearLockout (h : k ≠ k') (tables : LoginTables) :
    AgreeAt k tables (tables.deleteLockouts (fun k _ => k = k')) where
  failures _ := rfl
  lockout := by cases hk : tables.getLockout k <;> simp [hk, h]

end AgreeAt

theorem count_insertAttempt (tables : LoginTables) (k : LoginIdentity) (h : since ≤ now) :
    (tables.insertAttempt ⟨k, now⟩).countFailuresSince k since =
      tables.countFailuresSince k since + 1 := by
  simp [countFailuresSince, failuresSince, insertAttempt, List.filter_append, h]

theorem failures_clearAttempts (tables : LoginTables) (k : LoginIdentity) (since : Timestamp) :
    (tables.deleteAttempts (fun a => a.identity = k)).failuresSince k since = [] := by
  rw [failuresSince, deleteAttempts, List.filter_filter, List.filter_eq_nil_iff]
  intro a _
  by_cases ha : a.identity = k <;> simp [ha]

end LoginTables

theorem computeLockoutSeconds_ok (h : 0 < n) (config : LoginThrottleConfig) :
    ∃ duration, computeLockoutSeconds n config = .ok duration := by
  unfold computeLockoutSeconds
  rw [if_neg (by omega)]
  split
  · exact ⟨_, rfl⟩
  · split <;> exact ⟨_, rfl⟩

theorem nextCount_getLockout (tables : LoginTables) (k : LoginIdentity) :
    nextCount (tables.getLockout k) = tables.lockoutCount k + 1 := by
  unfold LoginTables.lockoutCount
  cases tables.getLockout k <;> simp [nextCount]

/-- Creating and renewing agree: the count is one more than before. -/
theorem upsertLockout_run (tables : LoginTables) (k : LoginIdentity)
    (lockedUntil now : Timestamp) (next : LoginTransaction) :
    ∃ lockout, lockout.lockedUntil = lockedUntil ∧
      lockout.lockoutCount = tables.lockoutCount k + 1 ∧
      (upsertLockout k lockedUntil now next).run tables =
        next.run (tables.setLockout k lockout) := by
  cases h : tables.getLockout k with
  | none =>
    refine ⟨⟨lockedUntil, 1, now, now⟩, rfl, ?_, ?_⟩
    · simp [LoginTables.lockoutCount, h]
    · simp [upsertLockout, run, h]
  | some existing =>
    refine ⟨existing.renewed lockedUntil now, rfl, ?_, ?_⟩
    · simp [LoginTables.lockoutCount, LoginLockout.renewed, h]
    · simp [upsertLockout, renew, run, h]

namespace LoginThrottle

variable (th : LoginThrottle)

/-- The lockout of the identity ends as long after `now` as its count asks for. -/
def LockedFrom (now : Timestamp) (tables : LoginTables) (k : LoginIdentity) : Prop :=
  ∃ lockout duration, tables.getLockout k = some lockout ∧
    computeLockoutSeconds lockout.lockoutCount th.config = .ok duration ∧
    lockout.lockedUntil = now + seconds duration

/-- The failures of the identity inside the window, with one more, reach its maximum. -/
def Reaches (now : Timestamp) (tables : LoginTables) (k : LoginIdentity) : Prop :=
  th.maxFailures k.scope ≤ tables.countFailuresSince k (th.windowStart now) + 1

instance (now : Timestamp) (tables : LoginTables) (k : LoginIdentity) :
    Decidable (th.Reaches now tables k) :=
  inferInstanceAs (Decidable (_ ≤ _))

/-- What one more failure of the identity does to its rows. -/
structure Counts (now : Timestamp) (before after : LoginTables) (k : LoginIdentity) : Prop where
  below : ¬th.Reaches now before k →
    after.countFailuresSince k (th.windowStart now) =
      before.countFailuresSince k (th.windowStart now) + 1 ∧
    after.getLockout k = before.getLockout k
  reached : th.Reaches now before k →
    after.countFailuresSince k (th.windowStart now) = 0 ∧ th.LockedFrom now after k ∧
    after.lockoutCount k = before.lockoutCount k + 1

variable {th : LoginThrottle}

theorem windowStart_le (th : LoginThrottle) (now : Timestamp) : th.windowStart now ≤ now :=
  Nat.sub_le _ _

/-- One turn of the loop of `record_failure`. -/
theorem recordEach_cons_run (th : LoginThrottle) (now : Timestamp) (next : LoginTransaction)
    (k : LoginIdentity) (ks : List LoginIdentity) (tables : LoginTables) :
    ∃ after, (th.recordEach now next (k :: ks)).run tables =
        (th.recordEach now next ks).run after ∧
      th.Counts now tables after k ∧ ∀ k' ≠ k, LoginTables.AgreeAt k' tables after := by
  have hcount := tables.count_insertAttempt k (th.windowStart_le now)
  by_cases hr : th.Reaches now tables k
  · obtain ⟨duration, hd⟩ :=
      computeLockoutSeconds_ok (Nat.succ_pos (tables.lockoutCount k)) th.config
    rw [Nat.succ_eq_add_one, ← nextCount_getLockout] at hd
    obtain ⟨lockout, hu, hc, hrun⟩ :=
      upsertLockout_run (tables.insertAttempt ⟨k, now⟩) k (now + seconds duration) now
        (clearAttempts k (th.recordEach now next ks))
    refine ⟨((tables.insertAttempt ⟨k, now⟩).setLockout k lockout).deleteAttempts
      (fun a => a.identity = k), ?_, ⟨fun h => absurd hr h, fun _ => ⟨?_, ?_, ?_⟩⟩, ?_⟩
    · have hge := hr
      rw [Reaches, ← hcount, ← not_lt] at hge
      simp only [recordEach, run]
      rw [if_neg hge]
      simp only [run, LoginTables.getLockout_insertAttempt, hd]
      exact hrun
    · rw [LoginTables.countFailuresSince, LoginTables.failures_clearAttempts]
      rfl
    · refine ⟨lockout, duration, by simp, ?_, hu⟩
      rw [hc, ← nextCount_getLockout]
      exact hd
    · simpa [LoginTables.lockoutCount] using hc
    · intro k' hk
      exact (LoginTables.AgreeAt.insertAttempt hk tables now).trans
        ((LoginTables.AgreeAt.setLockout hk _ lockout).trans (.clearAttempts hk _))
  · refine ⟨_, ?_, ⟨fun _ => ⟨hcount, rfl⟩, fun h => absurd h hr⟩, ?_⟩
    · rw [Reaches, ← hcount, not_le] at hr
      simp only [recordEach, run]
      rw [if_pos hr]
    · intro k' hk
      exact .insertAttempt hk tables now

/-- What is counted for an identity depends on its own rows only. -/
theorem Counts.congr {before before' after after' : LoginTables}
    (h : th.Counts now before after k) (hb : LoginTables.AgreeAt k before' before)
    (ha : LoginTables.AgreeAt k after after') : th.Counts now before' after' k where
  below hr := by
    rw [Reaches, ← hb.count] at hr
    rw [ha.count, ha.lockout, ← hb.count, ← hb.lockout]
    exact h.below hr
  reached hr := by
    rw [Reaches, ← hb.count] at hr
    rw [ha.count, ha.lockoutCount, ← hb.lockoutCount, LockedFrom, ha.lockout]
    exact h.reached hr

theorem recordEach_run (th : LoginThrottle) (now : Timestamp) (next : LoginTransaction)
    (ks : List LoginIdentity) (hn : ks.Nodup) (tables : LoginTables) :
    ∃ after, (th.recordEach now next ks).run tables = next.run after ∧
      (∀ k ∈ ks, th.Counts now tables after k) ∧ ∀ k ∉ ks, LoginTables.AgreeAt k tables after := by
  induction ks generalizing tables with
  | nil => exact ⟨tables, rfl, by simp, fun k _ => .refl k tables⟩
  | cons k ks ih =>
    obtain ⟨hk, hn⟩ := List.nodup_cons.mp hn
    obtain ⟨mid, hrun, hcounts, hagree⟩ := th.recordEach_cons_run now next k ks tables
    obtain ⟨after, hrun', hcounts', hagree'⟩ := ih hn mid
    refine ⟨after, hrun.trans hrun', ?_, ?_⟩
    · intro k' hk'
      rcases List.mem_cons.mp hk' with rfl | hmem
      · exact hcounts.congr (.refl _ _) (hagree' _ hk)
      · have hne : k' ≠ k := by
          intro he
          exact hk (he ▸ hmem)
        exact (hcounts' k' hmem).congr (hagree k' hne) (.refl _ _)
    · intro k' hk'
      rw [List.mem_cons, not_or] at hk'
      exact (hagree k' hk'.1).trans (hagree' k' hk'.2)

theorem identities_nodup (th : LoginThrottle) (username : String) (ip : Option String) :
    (th.identities username ip).Nodup := by
  simp [identities]

/-- The tables when the two purges are over. -/
def purged (th : LoginThrottle) (now : Timestamp) (tables : LoginTables) : LoginTables :=
  (tables.deleteAttempts (fun a => a.timestamp < th.windowStart now)).deleteLockouts
    (fun _ l => l.lockedUntil < th.backoffMemoryStart now)

theorem purge_run (th : LoginThrottle) (now : Timestamp) (next : LoginTransaction)
    (tables : LoginTables) : (th.purge now next).run tables = next.run (th.purged now tables) := rfl

/-- The purges leave every attempt of the window. -/
theorem failuresSince_purged (tables : LoginTables) (k : LoginIdentity)
    (h : th.windowStart now ≤ since) :
    (th.purged now tables).failuresSince k since = tables.failuresSince k since := by
  simp only [purged, LoginTables.failuresSince, LoginTables.deleteLockouts,
    LoginTables.deleteAttempts, List.filter_filter]
  apply List.filter_congr
  intro a _
  by_cases ha : since ≤ a.timestamp
  · simp [not_lt.mpr (h.trans ha)]
  · simp [ha]

/-- The lockout of the identity is past its retention. -/
def outlived (th : LoginThrottle) (now : Timestamp) (tables : LoginTables) (k : LoginIdentity) :
    Bool :=
  (tables.getLockout k).any (fun l => l.lockedUntil < th.backoffMemoryStart now)

theorem getLockout_purged (th : LoginThrottle) (now : Timestamp) (tables : LoginTables)
    (k : LoginIdentity) :
    (th.purged now tables).getLockout k =
      if th.outlived now tables k then none else tables.getLockout k := by
  rw [purged, LoginTables.getLockout_deleteLockouts, LoginTables.getLockout_deleteAttempts,
    outlived]
  cases tables.getLockout k with
  | none => rfl
  | some l =>
    rw [Option.filter_some, Option.any_some]
    by_cases h : l.lockedUntil < th.backoffMemoryStart now
    · rw [decide_eq_true h]
      rfl
    · rw [decide_eq_false h]
      rfl

theorem recordFailure_run (he : th.config.enabled) (username : String) (ip : Option String)
    (now : Timestamp) (next : LoginTransaction) (tables : LoginTables) :
    ∃ after, (th.recordFailure username ip now next).run tables = next.run after ∧
      (∀ k ∈ th.identities username ip, th.Counts now (th.purged now tables) after k) ∧
      ∀ k ∉ th.identities username ip, LoginTables.AgreeAt k (th.purged now tables) after := by
  rw [recordFailure, he]
  exact th.recordEach_run now next _ (th.identities_nodup username ip) (th.purged now tables)

theorem clearEach_run (next : LoginTransaction) (ks : List LoginIdentity) (tables : LoginTables) :
    ∃ after, (clearEach next ks).run tables = next.run after ∧
      (∀ k ∈ ks, after.getLockout k = none) ∧ ∀ k ∉ ks, LoginTables.AgreeAt k tables after := by
  induction ks generalizing tables with
  | nil => exact ⟨tables, rfl, by simp, fun k _ => .refl k tables⟩
  | cons k ks ih =>
    obtain ⟨after, hrun, hnone, hagree⟩ :=
      ih ((tables.deleteAttempts (fun a => a.identity = k)).deleteLockouts (fun k' _ => k' = k))
    have hhead : ∀ k' ≠ k, LoginTables.AgreeAt k' tables
        ((tables.deleteAttempts (fun a => a.identity = k)).deleteLockouts (fun k' _ => k' = k)) :=
      fun k' hk => (LoginTables.AgreeAt.clearAttempts hk _).trans (.clearLockout hk _)
    refine ⟨after, hrun, ?_, ?_⟩
    · intro k' hk'
      by_cases hks : k' ∈ ks
      · exact hnone k' hks
      · obtain rfl : k' = k := (List.mem_cons.mp hk').resolve_right hks
        rw [(hagree k' hks).lockout]
        cases hg : tables.getLockout k' <;> simp [hg]
    · intro k' hk'
      rw [List.mem_cons, not_or] at hk'
      exact (hhead k' hk'.1).trans (hagree k' hk'.2)

end LoginThrottle

end FuturesBot
