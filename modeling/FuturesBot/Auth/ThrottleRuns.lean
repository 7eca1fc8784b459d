import FuturesBot.Auth.Counting
import FuturesBot.Lib.Runs

namespace FuturesBot
open Lib LoginTransaction

inductive ThrottleCall
  | checkLockout (username : String) (ip : Option String) (now : Timestamp)
  | recordFailure (username : String) (ip : Option String) (now : Timestamp)
  | clear (username : String) (ip : Option String)

structure ThrottleState where
  tables : LoginTables
  clock : Timestamp

/-- A call with the states around it. -/
abbrev ThrottleEntry := ThrottleState × ThrottleCall × ThrottleState

namespace LoginThrottle

variable (th : LoginThrottle)

/-- One call after another, each committed, on a clock that does not go back. -/
inductive Step : ThrottleState → ThrottleCall → ThrottleState → Prop
  | checkLockout {s : ThrottleState} {now : Timestamp} (username : String) (ip : Option String)
      (h : s.clock ≤ now) : Step s (.checkLockout username ip now) ⟨s.tables, now⟩
  | recordFailure {s : ThrottleState} {now : Timestamp} {username : String} {ip : Option String}
      {tables : LoginTables} (h : s.clock ≤ now)
      (hr : (th.recordFailure username ip now .commit).run s.tables = .ok tables) :
      Step s (.recordFailure username ip now) ⟨tables, now⟩
  | clear {s : ThrottleState} {username : String} {ip : Option String} {tables : LoginTables}
      (hr : (th.clear username ip .commit).run s.tables = .ok tables) :
      Step s (.clear username ip) ⟨tables, s.clock⟩

/-- The rows of an identity after a failure at `now`: the failures of the window are
fewer than the maximum and all stored, or none is and the identity is locked. -/
def Throttled (now : Timestamp) (before after : LoginTables) (k : LoginIdentity) : Prop :=
  if before.countFailuresSince k (th.windowStart now) + 1 < th.maxFailures k.scope then
    after.countFailuresSince k (th.windowStart now) =
      before.countFailuresSince k (th.windowStart now) + 1
  else after.countFailuresSince k (th.windowStart now) = 0 ∧ th.LockedFrom now after k

/-- The call is the failure with which the identity is locked out. -/
def locks (k : LoginIdentity) (tables : LoginTables) : ThrottleCall → Bool
  | .recordFailure username ip now => k ∈ th.identities username ip && th.Reaches now tables k
  | .checkLockout .. | .clear .. => false

/-- The call is a login of the identity, or purges its lockout after the retention. -/
def forgets (k : LoginIdentity) (tables : LoginTables) : ThrottleCall → Bool
  | .clear username ip => k ∈ th.identities username ip
  | .recordFailure _ _ now => th.outlived now tables k
  | .checkLockout .. => false

/-- The number of lockouts of an identity since it was last forgotten. -/
def lockoutsAfter (k : LoginIdentity) (count : ℕ) (entry : ThrottleEntry) : ℕ :=
  (if th.forgets k entry.1.tables entry.2.1 then 0 else count) +
    if th.locks k entry.1.tables entry.2.1 then 1 else 0

/-- No failure of this login's identities. -/
def Spares (username : String) (ip : Option String) : ThrottleCall → Prop
  | .recordFailure username' ip' _ =>
    ∀ k ∈ th.identities username ip, k ∉ th.identities username' ip'
  | .checkLockout .. | .clear .. => True

variable {th : LoginThrottle} {tables : LoginTables} {now now' : Timestamp}

theorem countFailuresSince_purged (th : LoginThrottle) (now : Timestamp) (tables : LoginTables)
    (k : LoginIdentity) :
    (th.purged now tables).countFailuresSince k (th.windowStart now) =
      tables.countFailuresSince k (th.windowStart now) := by
  rw [LoginTables.countFailuresSince, failuresSince_purged _ _ le_rfl,
    LoginTables.countFailuresSince]

theorem reaches_purged (tables : LoginTables) (k : LoginIdentity) :
    th.Reaches now (th.purged now tables) k ↔ th.Reaches now tables k := by
  rw [Reaches, countFailuresSince_purged, Reaches]

theorem lockoutCount_purged (th : LoginThrottle) (now : Timestamp) (tables : LoginTables)
    (k : LoginIdentity) :
    (th.purged now tables).lockoutCount k =
      if th.outlived now tables k then 0 else tables.lockoutCount k := by
  rw [LoginTables.lockoutCount, getLockout_purged, LoginTables.lockoutCount]
  split <;> rfl

theorem Counts.throttled (h : th.Counts now (th.purged now before) after k) :
    th.Throttled now before after k := by
  unfold Throttled
  split
  · rename_i hlt
    rw [← countFailuresSince_purged th now before]
    refine (h.below ?_).1
    rw [reaches_purged, Reaches]
    omega
  · rename_i hge
    have hr : th.Reaches now (th.purged now before) k := by
      rw [reaches_purged, Reaches]
      omega
    exact ⟨(h.reached hr).1, (h.reached hr).2.1⟩

/-- What a failed login leaves behind, wherever the calls before it have led. -/
theorem step_recordFailure (he : th.config.enabled)
    (h : th.Step s (.recordFailure username ip now) t) :
    (∀ k ∈ th.identities username ip, th.Counts now (th.purged now s.tables) t.tables k) ∧
      ∀ k ∉ th.identities username ip,
        LoginTables.AgreeAt k (th.purged now s.tables) t.tables := by
  obtain _ | ⟨_, hr⟩ := h
  obtain ⟨after, hrun, hcounts, hagree⟩ := recordFailure_run he username ip now .commit s.tables
  obtain rfl := Except.ok.inj (hr.symm.trans hrun)
  exact ⟨hcounts, hagree⟩

theorem step_clear (he : th.config.enabled) (h : th.Step s (.clear username ip) t) :
    (∀ k ∈ th.identities username ip, t.tables.getLockout k = none) ∧
      ∀ k ∉ th.identities username ip, LoginTables.AgreeAt k s.tables t.tables := by
  obtain _ | _ | hr := h
  rw [clear, he] at hr
  obtain ⟨after, hrun, hnone, hagree⟩ :=
    clearEach_run .commit (th.identities username ip) s.tables
  obtain rfl := Except.ok.inj (hr.symm.trans hrun)
  exact ⟨hnone, hagree⟩

theorem lockoutsAfter_recordFailure (k : LoginIdentity) (count : ℕ) (s t : ThrottleState)
    (username : String) (ip : Option String) (now : Timestamp) :
    th.lockoutsAfter k count (s, .recordFailure username ip now, t) =
      (if th.outlived now s.tables k then 0 else count) +
        if k ∈ th.identities username ip ∧ th.Reaches now s.tables k then 1 else 0 := by
  unfold lockoutsAfter
  congr 1
  by_cases h : k ∈ th.identities username ip ∧ th.Reaches now s.tables k
  · rw [if_pos h, if_pos (by simp only [locks, h.1, h.2, decide_true, Bool.and_self])]
  · rw [if_neg h, if_neg (by simpa only [locks, Bool.and_eq_true, decide_eq_true_eq] using h)]

theorem step_lockoutCount (he : th.config.enabled) (k : LoginIdentity) (h : th.Step s call t) :
    t.tables.lockoutCount k = th.lockoutsAfter k (s.tables.lockoutCount k) (s, call, t) := by
  cases call with
  | checkLockout =>
    cases h
    rfl
  | recordFailure username ip now =>
    obtain ⟨hcounts, hagree⟩ := step_recordFailure he h
    rw [lockoutsAfter_recordFailure, ← lockoutCount_purged]
    by_cases hk : k ∈ th.identities username ip
    · by_cases hr : th.Reaches now s.tables k
      · rw [if_pos ⟨hk, hr⟩]
        exact ((hcounts k hk).reached ((reaches_purged _ _).mpr hr)).2.2
      · have hsame := ((hcounts k hk).below (mt (reaches_purged _ _).mp hr)).2
        rw [if_neg (fun h => hr h.2), LoginTables.lockoutCount, hsame, LoginTables.lockoutCount]
        rfl
    · rw [if_neg (fun h => hk h.1)]
      exact (hagree k hk).lockoutCount
  | clear username ip =>
    obtain ⟨hnone, hagree⟩ := step_clear he h
    by_cases hk : k ∈ th.identities username ip
    · simp [LoginTables.lockoutCount, hnone k hk, lockoutsAfter, forgets, locks, hk]
    · rw [(hagree k hk).lockoutCount]
      simp [lockoutsAfter, forgets, locks, hk]

/-- The stored count is the number of lockouts since the identity was last forgotten. -/
theorem run_lockoutCount (he : th.config.enabled) (hr : Run (Recorded th.Step) s trace t)
    (k : LoginIdentity) :
    t.tables.lockoutCount k = trace.foldl (th.lockoutsAfter k) (s.tables.lockoutCount k) := by
  induction hr with
  | nil => rfl
  | snoc _ hs ih =>
    obtain ⟨rfl, rfl, hs⟩ := hs
    rw [List.foldl_append, ← ih]
    exact step_lockoutCount he k hs

/-- Without a failure of its own, an identity is not locked anew. -/
theorem step_getLockout (he : th.config.enabled) (h : th.Step s call t)
    (hc : th.Spares username ip call) (hk : k ∈ th.identities username ip) :
    t.tables.getLockout k = s.tables.getLockout k ∨ t.tables.getLockout k = none := by
  cases call with
  | checkLockout =>
    cases h
    exact .inl rfl
  | recordFailure username' ip' now =>
    rw [((step_recordFailure he h).2 k (hc k hk)).lockout, getLockout_purged]
    split
    · exact .inr rfl
    · exact .inl rfl
  | clear username' ip' =>
    obtain ⟨hnone, hagree⟩ := step_clear he h
    by_cases hk' : k ∈ th.identities username' ip'
    · exact .inr (hnone k hk')
    · exact .inl (hagree k hk').lockout

theorem run_getLockout (he : th.config.enabled) (hr : Run (Recorded th.Step) s trace t)
    (hc : ∀ entry ∈ trace, th.Spares username ip entry.2.1) (hk : k ∈ th.identities username ip) :
    t.tables.getLockout k = s.tables.getLockout k ∨ t.tables.getLockout k = none := by
  refine hr.stays (R := fun s t => t.tables.getLockout k = s.tables.getLockout k ∨
    t.tables.getLockout k = none) (fun _ => .inl rfl) ?_ ?_
  · intro s t u hst htu
    rcases htu with htu | htu
    · rw [htu]
      exact hst
    · exact .inr htu
  · intro entry hm hs
    exact step_getLockout he hs (hc entry hm) hk

theorem lockedUntil_le (lockedUntil now : Timestamp) :
    (lockedUntil : ℤ) ≤ now + remainingSeconds lockedUntil now * 1000000 := by
  have hceil : ((lockedUntil : ℚ) - now) / 1000000 ≤ remainingSeconds lockedUntil now := by
    refine (Int.le_ceil _).trans (Int.cast_le.mpr ?_)
    exact le_max_right 1 _
  rw [div_le_iff₀ (by norm_num), sub_le_iff_le_add'] at hceil
  exact_mod_cast hceil

theorem activeLockout_getLockouts {lockout : LoginLockout} {pairs : List LoginIdentity}
    (hk : k ∈ pairs) (hl : tables.getLockout k = some lockout) (now : Timestamp) :
    activeLockout (tables.getLockouts pairs) now k =
      if now < lockout.lockedUntil then some (k.scope, lockout.lockedUntil) else none := by
  have hget : tables.getLockouts pairs k = some lockout := by
    rw [LoginTables.getLockouts, if_pos hk]
    exact hl
  rw [activeLockout, hget]

theorem activeLockout_none {pairs : List LoginIdentity} (hl : tables.getLockout k = none)
    (now : Timestamp) : activeLockout (tables.getLockouts pairs) now k = none := by
  have hget : tables.getLockouts pairs k = none := by
    unfold LoginTables.getLockouts
    split
    · exact hl
    · rfl
  rw [activeLockout, hget]

/-- The answer reaches to the end of every lockout of the login. -/
theorem checkLockout_covers (he : th.config.enabled) {lockout : LoginLockout}
    (hk : k ∈ th.identities username ip) (hl : tables.getLockout k = some lockout)
    (now : Timestamp) :
    (lockout.lockedUntil : ℤ) ≤
      now + (th.checkLockout tables username ip now).retryAfterSeconds * 1000000 := by
  have hactive := activeLockout_getLockouts hk hl now
  unfold checkLockout
  rw [he]
  by_cases hn : now < lockout.lockedUntil
  · rw [if_pos hn] at hactive
    have hm := List.mem_filterMap.mpr ⟨k, hk, hactive⟩
    simp only [Bool.not_true, Bool.false_eq_true, if_false]
    split
    · rename_i ha
      rw [List.argmax_eq_none.mp ha] at hm
      cases hm
    · rename_i scope lockedUntil ha
      have hle : lockout.lockedUntil ≤ lockedUntil := List.le_of_mem_argmax hm ha
      exact (Int.ofNat_le.mpr hle).trans (lockedUntil_le lockedUntil now)
  · have hle : (lockout.lockedUntil : ℤ) ≤ now := Int.ofNat_le.mpr (not_lt.mp hn)
    simp only [Bool.not_true, Bool.false_eq_true, if_false]
    split
    · simpa using hle
    · rename_i lockedUntil ha
      have hpos : 1 ≤ remainingSeconds lockedUntil now := le_max_left 1 _
      show (lockout.lockedUntil : ℤ) ≤ now + remainingSeconds lockedUntil now * 1000000
      omega

theorem checkLockout_open
    (h : ∀ k ∈ th.identities username ip, ∀ lockout, tables.getLockout k = some lockout →
      lockout.lockedUntil ≤ now) :
    (th.checkLockout tables username ip now).locked = false := by
  have hnil : (th.identities username ip).filterMap
      (activeLockout (tables.getLockouts (th.identities username ip)) now) = [] := by
    rw [List.filterMap_eq_nil_iff]
    intro k hk
    cases hl : tables.getLockout k with
    | none => exact activeLockout_none hl now
    | some lockout =>
      rw [activeLockout_getLockouts hk hl, if_neg]
      exact not_lt.mpr (h k hk lockout hl)
  simp only [checkLockout, hnil, List.argmax_nil]
  split <;> rfl

/-- Whoever waits as long as the answer says, and does not fail meanwhile, is let in. -/
theorem run_checkLockout (he : th.config.enabled) (hr : Run (Recorded th.Step) s trace t)
    (hc : ∀ entry ∈ trace, th.Spares username ip entry.2.1)
    (hw : (now : ℤ) + (th.checkLockout s.tables username ip now).retryAfterSeconds * 1000000 ≤
      now') :
    (th.checkLockout t.tables username ip now').locked = false := by
  apply checkLockout_open
  intro k hk lockout hl
  have hs : s.tables.getLockout k = some lockout := by
    rcases run_getLockout he hr hc hk with hsame | hnone
    · rw [← hsame]
      exact hl
    · rw [hnone] at hl
      cases hl
  exact Int.ofNat_le.mp ((checkLockout_covers he hk hs now).trans hw)

theorem windowStart_mono (th : LoginThrottle) (h : now ≤ now') :
    th.windowStart now ≤ th.windowStart now' :=
  Nat.sub_le_sub_right h _

theorem mem_attempts_purged {a : LoginAttempt} (ha : a ∈ tables.attempts)
    (hw : th.windowStart now ≤ a.timestamp) : a ∈ (th.purged now tables).attempts := by
  apply List.mem_filter.mpr
  refine ⟨ha, ?_⟩
  show (!decide (a.timestamp < th.windowStart now)) = true
  rw [decide_eq_false (not_lt.mpr hw)]
  rfl

theorem getLockout_purged_active {lockout : LoginLockout} (hl : tables.getLockout k = some lockout)
    (hn : now < lockout.lockedUntil) : (th.purged now tables).getLockout k = some lockout := by
  rw [getLockout_purged, outlived, hl, Option.any_some, decide_eq_false, if_neg Bool.false_ne_true]
  exact not_lt.mpr ((Nat.sub_le _ _).trans hn.le)

/-- Both scopes are throttled by every failure, lockouts are counted until they are
forgotten, the purges delete nothing that still counts, and a lockout ends in time. -/
theorem throttle_contract (he : th.config.enabled) (hr : Run (Recorded th.Step) s trace t) :
    (∀ username ip now, ∃ after,
      (th.recordFailure username ip now .commit).run t.tables = .ok after) ∧
    (∀ before after username ip now, (before, .recordFailure username ip now, after) ∈ trace →
      (∀ k ∈ th.identities username ip, th.Throttled now before.tables after.tables k) ∧
      ∃ purged, (th.purge now .commit).run before.tables = .ok purged ∧ ∀ moment ≥ now,
        (∀ a ∈ before.tables.attempts, th.windowStart moment ≤ a.timestamp →
          a ∈ purged.attempts) ∧
        ∀ k lockout, before.tables.getLockout k = some lockout → moment < lockout.lockedUntil →
          purged.getLockout k = some lockout) ∧
    (∀ k, t.tables.lockoutCount k =
      trace.foldl (th.lockoutsAfter k) (s.tables.lockoutCount k)) ∧
    ∀ username ip (now now' : Timestamp),
      (∀ entry ∈ trace, th.Spares username ip entry.2.1) →
      (now : ℤ) + (th.checkLockout s.tables username ip now).retryAfterSeconds * 1000000 ≤ now' →
      (th.checkLockout t.tables username ip now').locked = false := by
  refine ⟨?_, ?_, fun k => run_lockoutCount he hr k, ?_⟩
  · intro username ip now
    obtain ⟨after, hrun, _⟩ := recordFailure_run he username ip now .commit t.tables
    exact ⟨after, hrun⟩
  · intro before after username ip now hm
    have hs : th.Step before (.recordFailure username ip now) after :=
      hr.each (P := th.Step) (fun _ _ _ h => h) _ hm
    refine ⟨fun k hk => ((step_recordFailure he hs).1 k hk).throttled, _,
      th.purge_run now .commit before.tables, ?_⟩
    intro moment hle
    constructor
    · intro a ha hw
      exact mem_attempts_purged ha ((th.windowStart_mono hle).trans hw)
    · intro k lockout hl hn
      exact getLockout_purged_active hl (lt_of_le_of_lt hle hn)
  · intro username ip now now' hc hw
    exact run_checkLockout he hr hc hw

end LoginThrottle

/-- After one failure on empty tables the attempt is throttled, and another login is not. -/
theorem first_failure_throttled :
    ∃ after, (sampleThrottle.recordFailure "ana" none 0 .commit).run .empty = .ok after ∧
      (∀ k ∈ sampleThrottle.identities "ana" none,
        sampleThrottle.Throttled 0 .empty after k) ∧
      (sampleThrottle.checkLockout after "eva" (some "10.0.0.2") 0).locked = false := by
  have he : sampleThrottle.config.enabled := rfl
  obtain ⟨after, hrun, _⟩ := LoginThrottle.recordFailure_run he "ana" none 0 .commit .empty
  have hs : Run (Recorded sampleThrottle.Step) ⟨.empty, 0⟩
      [(⟨.empty, 0⟩, .recordFailure "ana" none 0, ⟨after, 0⟩)] ⟨after, 0⟩ :=
    .snoc (.nil _) ⟨rfl, rfl, .recordFailure le_rfl hrun⟩
  obtain ⟨_, hfailed, _, hpasses⟩ := LoginThrottle.throttle_contract he hs
  refine ⟨after, hrun, (hfailed _ _ _ _ _ (List.mem_singleton.mpr rfl)).1, ?_⟩
  apply hpasses "eva" (some "10.0.0.2") 0 0
  · intro entry hm
    rw [List.mem_singleton.mp hm]
    show ∀ k ∈ sampleThrottle.identities "eva" (some "10.0.0.2"),
      k ∉ sampleThrottle.identities "ana" none
    decide +kernel
  · decide +kernel

end FuturesBot
