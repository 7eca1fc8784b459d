import FuturesBot.Auth.Sessions
import FuturesBot.Auth.ThrottleRuns
import FuturesBot.Lib.Periods

namespace FuturesBot
open Lib LoginTransaction

/-- A login with its answer. -/
abbrev LoginEntry := LoginSubmission × Except ApiError LoginResponse

/-- A lockout lasts no less than the first one. -/
theorem lockoutSeconds_le (h : computeLockoutSeconds n config = .ok duration) :
    config.lockoutSeconds ≤ duration := by
  have hmax := config.max_lockout_not_below_base
  unfold computeLockoutSeconds at h
  split at h
  · cases h
  · split at h
    · obtain rfl := Except.ok.inj h
      exact le_min le_rfl hmax
    · split at h
      · obtain rfl := Except.ok.inj h
        exact hmax
      · obtain rfl := Except.ok.inj h
        refine le_min (Nat.le_floor ?_) hmax
        exact le_mul_of_one_le_right (Nat.cast_nonneg _)
          (one_le_pow₀ config.backoff_at_least_one)

/-- The later a stretch begins, the fewer failures are in it. -/
theorem LoginTables.countFailuresSince_anti (tables : LoginTables) (k : LoginIdentity)
    (h : since ≤ since') :
    tables.countFailuresSince k since' ≤ tables.countFailuresSince k since := by
  refine (List.monotone_filter_right _ fun a ha => ?_).length_le
  simp only [decide_eq_true_eq] at ha ⊢
  exact ⟨ha.1, h.trans ha.2⟩

namespace LoginThrottle

variable {th : LoginThrottle}

/-- Whoever is not locked out has no lockout that goes on. -/
theorem lockedUntil_le_of_open (he : th.config.enabled)
    (hopen : (th.checkLockout tables username ip now).locked = false)
    (hk : k ∈ th.identities username ip) (hl : tables.getLockout k = some lockout) :
    lockout.lockedUntil ≤ now := by
  have hcovers := checkLockout_covers he hk hl now
  have hzero : (th.checkLockout tables username ip now).retryAfterSeconds = 0 := by
    unfold checkLockout at hopen ⊢
    rw [he] at hopen ⊢
    simp only [Bool.not_true, Bool.false_eq_true, if_false] at hopen ⊢
    split at hopen
    · rfl
    · cases hopen
  rw [hzero, zero_mul, add_zero] at hcovers
  exact Int.ofNat_le.mp hcovers

/-- A failure below the maximum is one more in every stretch up to now. -/
theorem count_recordEach (hn : ks.Nodup) (hk : k ∈ ks) (hr : ¬th.Reaches now tables k)
    (hsince : since ≤ now) (hrun : (th.recordEach now .commit ks).run tables = .ok after) :
    after.countFailuresSince k since = tables.countFailuresSince k since + 1 := by
  induction ks generalizing tables with
  | nil => cases hk
  | cons k' ks ih =>
    obtain ⟨hfirst, hrest⟩ := List.nodup_cons.mp hn
    rcases List.mem_cons.mp hk with rfl | hmem
    · have hcount := tables.count_insertAttempt k (th.windowStart_le now)
      have hhead : (th.recordEach now .commit (k :: ks)).run tables =
          (th.recordEach now .commit ks).run (tables.insertAttempt ⟨k, now⟩) := by
        rw [Reaches, ← hcount, not_le] at hr
        simp only [recordEach, run]
        rw [if_pos hr]
      obtain ⟨last, hlast, -, hagree⟩ :=
        th.recordEach_run now .commit ks hrest (tables.insertAttempt ⟨k, now⟩)
      obtain rfl := Except.ok.inj (hrun.symm.trans (hhead.trans hlast))
      rw [(hagree k hfirst).count, LoginTables.count_insertAttempt _ _ hsince]
    · have hne : k ≠ k' := by
        rintro rfl
        exact hfirst hmem
      obtain ⟨mid, hmid, -, hagree⟩ := th.recordEach_cons_run now .commit k' ks tables
      have hsame := (hagree k hne).count
      rw [hmid] at hrun
      rw [ih hrest hmem (by rwa [Reaches, hsame]) hrun, hsame]

theorem recordEach_of_recordFailure (he : th.config.enabled)
    (h : (th.recordFailure username ip now .commit).run tables = .ok after) :
    (th.recordEach now .commit (th.identities username ip)).run (th.purged now tables) =
      .ok after := by
  rw [recordFailure, he] at h
  exact h

end LoginThrottle

namespace Dashboard

variable (D : Dashboard)

/-- Logins one after another, on a clock that does not go back. -/
def Logs (s : ThrottleState) (e : LoginEntry) (t : ThrottleState) : Prop :=
  s.clock ≤ e.1.now ∧ D.login s.tables e.1 = (e.2, t.tables) ∧ t.clock = e.1.now

def identities (submission : LoginSubmission) : List LoginIdentity :=
  D.throttle.identities submission.payload.username submission.ip

/-- The login was a guess of the identity at the password that came to nothing. -/
def guessed (k : LoginIdentity) (e : LoginEntry) : Bool :=
  k ∈ D.identities e.1 ∧ e.2 = .error invalidCredentials

/-- In microseconds, the time in which no more guesses pass than up to the first lockout. -/
def guessPeriod : ℕ :=
  seconds (min D.throttle.config.lockoutSeconds D.throttle.config.windowSeconds)

/-- The guesses of a period that began at `start`: they are all remembered, or they have led to a
lockout that outlasts the period. -/
def Guessed (k : LoginIdentity) (start guesses : ℕ) (s : ThrottleState) : Prop :=
  (guesses ≤ s.tables.countFailuresSince k start ∧ guesses < D.throttle.maxFailures k.scope) ∨
    (guesses ≤ D.throttle.maxFailures k.scope ∧ ∃ lockout,
      s.tables.getLockout k = some lockout ∧ start + D.guessPeriod ≤ lockout.lockedUntil)

variable {D}

/-- What another identity does changes nothing. -/
theorem Guessed.of_agree (h : D.Guessed k start guesses s)
    (hagree : LoginTables.AgreeAt k s.tables t.tables) : D.Guessed k start guesses t := by
  unfold Guessed at h ⊢
  rw [hagree.count, hagree.lockout]
  exact h

/-- The window reaches back to the start of the period. -/
theorem windowStart_le_start (hnow : now < start + D.guessPeriod) :
    D.throttle.windowStart now ≤ start := by
  have hperiod : D.guessPeriod ≤ seconds D.throttle.config.windowSeconds :=
    Nat.mul_le_mul_right _ (min_le_right _ _)
  exact Nat.sub_le_iff_le_add.mpr (hnow.le.trans (Nat.add_le_add_left hperiod start))

/-- The purges keep what the period still needs. -/
theorem Guessed.purged (h : D.Guessed k start guesses s) (hnow : now < start + D.guessPeriod)
    (clock : Timestamp) :
    D.Guessed k start guesses ⟨D.throttle.purged now s.tables, clock⟩ := by
  have hwindow := windowStart_le_start hnow
  rcases h with ⟨hcount, hlt⟩ | ⟨hle, lockout, hlockout, hlast⟩
  · refine .inl ⟨?_, hlt⟩
    rw [LoginTables.countFailuresSince, LoginThrottle.failuresSince_purged _ _ hwindow]
    exact hcount
  · exact .inr ⟨hle, lockout,
      LoginThrottle.getLockout_purged_active hlockout (hnow.trans_le hlast), hlast⟩

/-- A guess is counted, or leads to a lockout. -/
theorem Guessed.recordFailure (he : D.throttle.config.enabled) {submission : LoginSubmission}
    (h : D.Guessed k start guesses s) (hk : k ∈ D.identities submission)
    (hopen : (D.throttle.checkLockout s.tables submission.payload.username submission.ip
      submission.now).locked = false)
    (hstart : start ≤ submission.now) (hnow : submission.now < start + D.guessPeriod)
    (hrun : (D.throttle.recordFailure submission.payload.username submission.ip submission.now
      .commit).run s.tables = .ok t.tables) :
    D.Guessed k start (guesses + 1) t := by
  obtain ⟨hcount, hlt⟩ : guesses ≤ s.tables.countFailuresSince k start ∧
      guesses < D.throttle.maxFailures k.scope := by
    rcases h with h | ⟨-, lockout, hlockout, hlast⟩
    · exact h
    · have hover := LoginThrottle.lockedUntil_le_of_open he hopen hk hlockout
      exact absurd (hnow.trans_le (hlast.trans hover)) (lt_irrefl _)
  obtain ⟨after, hafter, hcounts, -⟩ := LoginThrottle.recordFailure_run he
    submission.payload.username submission.ip submission.now .commit s.tables
  obtain rfl := Except.ok.inj (hrun.symm.trans hafter)
  by_cases hreaches : D.throttle.Reaches submission.now
      (D.throttle.purged submission.now s.tables) k
  · obtain ⟨-, ⟨lockout, duration, hlockout, hduration, huntil⟩, -⟩ :=
      (hcounts k hk).reached hreaches
    refine .inr ⟨hlt, lockout, hlockout, ?_⟩
    have hlong : D.guessPeriod ≤ seconds duration :=
      Nat.mul_le_mul_right _ ((min_le_left _ _).trans (lockoutSeconds_le hduration))
    rw [huntil]
    exact Nat.add_le_add hstart hlong
  · have hwindow := windowStart_le_start hnow
    have hkept : (D.throttle.purged submission.now s.tables).countFailuresSince k start =
        s.tables.countFailuresSince k start := by
      rw [LoginTables.countFailuresSince, LoginThrottle.failuresSince_purged _ _ hwindow,
        LoginTables.countFailuresSince]
    have hmore := LoginThrottle.count_recordEach (D.throttle.identities_nodup _ _) hk hreaches
      hstart (LoginThrottle.recordEach_of_recordFailure he hrun)
    have hbelow := LoginTables.countFailuresSince_anti
      (D.throttle.purged submission.now s.tables) k hwindow
    rw [LoginThrottle.Reaches, not_le] at hreaches
    refine .inl ⟨?_, ?_⟩
    · rw [hmore, hkept]
      exact Nat.add_le_add_right hcount 1
    · rw [hkept] at hbelow
      exact (Nat.add_le_add_right (hcount.trans hbelow) 1).trans_lt hreaches

/-- What a login can do: nothing to the tables, forget its failures, or count one more. -/
theorem login_cases {submission : LoginSubmission}
    (h : D.login tables submission = (reply, after)) :
    (after = tables ∧ reply ≠ .error invalidCredentials) ∨
    (D.checkPassword submission.payload = .ok true ∧
      reply ≠ .error invalidCredentials ∧
      (D.throttle.clear submission.payload.username submission.ip .commit).run tables =
        .ok after) ∨
    ((D.throttle.checkLockout tables submission.payload.username submission.ip
        submission.now).locked = false ∧ reply = .error invalidCredentials ∧
      (D.throttle.recordFailure submission.payload.username submission.ip submission.now
        .commit).run tables = .ok after) := by
  unfold login at h
  dsimp only at h
  split at h
  · obtain ⟨rfl, rfl⟩ := Prod.mk.inj h
    exact .inl ⟨rfl, by simp [authDisabled, invalidCredentials]⟩
  · split at h
    · obtain ⟨rfl, rfl⟩ := Prod.mk.inj h
      exact .inl ⟨rfl, by simp [tooManyAttempts, invalidCredentials]⟩
    · rename_i hopen
      split at h
      · obtain ⟨rfl, rfl⟩ := Prod.mk.inj h
        exact .inl ⟨rfl, by simp [invalidCredentials]⟩
      · unfold refuse at h
        split at h
        · obtain ⟨rfl, rfl⟩ := Prod.mk.inj h
          exact .inl ⟨rfl, by simp [invalidCredentials]⟩
        · rename_i failed hrun
          obtain ⟨rfl, rfl⟩ := Prod.mk.inj h
          exact .inr (.inr ⟨Bool.eq_false_iff.mpr hopen, rfl, hrun⟩)
      · rename_i hpassword
        unfold grantToken at h
        split at h
        · obtain ⟨rfl, rfl⟩ := Prod.mk.inj h
          exact .inl ⟨rfl, by simp [invalidCredentials]⟩
        · rename_i cleared hrun
          split at h
          · obtain ⟨rfl, rfl⟩ := Prod.mk.inj h
            exact .inr (.inl ⟨hpassword, by simp [invalidCredentials], hrun⟩)
          · obtain ⟨rfl, rfl⟩ := Prod.mk.inj h
            exact .inr (.inl ⟨hpassword, by simp [invalidCredentials], hrun⟩)

theorem guessed_of_ne (h : e.2 ≠ .error invalidCredentials) : D.guessed k e = false := by
  rw [guessed, decide_eq_false]
  rintro ⟨-, hreply⟩
  exact h hreply

/-- One login within a period. -/
theorem Guessed.step (he : D.throttle.config.enabled) (hs : D.Logs s e t)
    (hwrong : k ∈ D.identities e.1 → D.checkPassword e.1.payload ≠ .ok true)
    (hstart : start ≤ t.clock) (hnow : t.clock < start + D.guessPeriod)
    (h : D.Guessed k start guesses s) :
    D.Guessed k start (guesses + if D.guessed k e then 1 else 0) t := by
  obtain ⟨submission, reply⟩ := e
  obtain ⟨-, hlogin, hclock⟩ := hs
  rw [hclock] at hstart hnow
  rcases login_cases hlogin with ⟨hsame, hreply⟩ | ⟨hright, hreply, hrun⟩ | ⟨hopen, rfl, hrun⟩
  · rw [guessed_of_ne hreply, if_neg Bool.false_ne_true, add_zero]
    unfold Guessed at h ⊢
    rw [hsame]
    exact h
  · rw [guessed_of_ne hreply, if_neg Bool.false_ne_true, add_zero]
    have hk : k ∉ D.identities submission := fun hk => hwrong hk hright
    rw [LoginThrottle.clear, he] at hrun
    obtain ⟨after, hafter, -, hagree⟩ := LoginThrottle.clearEach_run .commit
      (D.throttle.identities submission.payload.username submission.ip) s.tables
    obtain rfl := Except.ok.inj (hrun.symm.trans hafter)
    exact h.of_agree (hagree k hk)
  · by_cases hk : k ∈ D.identities submission
    · have hguess : D.guessed k (submission, .error invalidCredentials) = true :=
        decide_eq_true ⟨hk, rfl⟩
      rw [hguess, if_pos rfl]
      exact h.recordFailure he hk hopen hstart hnow hrun
    · have hother : D.guessed k (submission, .error invalidCredentials) = false :=
        decide_eq_false fun hboth => hk hboth.1
      rw [hother, if_neg Bool.false_ne_true, add_zero]
      obtain ⟨after, hafter, -, hagree⟩ := LoginThrottle.recordFailure_run he
        submission.payload.username submission.ip submission.now .commit s.tables
      obtain rfl := Except.ok.inj (hrun.symm.trans hafter)
      exact (h.purged hnow t.clock).of_agree (hagree k hk)

namespace Quarter

theorem wrong_length : 1 ≤ "la-incorrecta".length ∧ "la-incorrecta".length ≤ 1024 := by decide

def guess : LoginSubmission :=
  { submission with payload := ⟨"agus", "la-incorrecta", name_length, wrong_length⟩ }

def guesser : LoginIdentity := ⟨.username, "agus"⟩

/-- The tables after one guess. -/
def failed : LoginTables :=
  (LoginTables.empty.insertAttempt ⟨guesser, guess.now⟩).insertAttempt
    ⟨⟨.ip, unknownIp⟩, guess.now⟩

end Quarter

end Dashboard

end FuturesBot
