import FuturesBot.Auth.Server
import FuturesBot.Lib.Runs

namespace FuturesBot
open Lib

namespace LoginTransaction

/-- The advisory locks still to be taken come in the order of their scopes, all of
them above `n`. -/
def Ascends : LoginTransaction → ℕ → Prop
  | commit, _ | raise _, _ => True
  | lockIdentity k next, n => n < lockNamespace k.scope ∧ next.Ascends (lockNamespace k.scope)
  | select next, n => ∀ tables, (next tables).Ascends n
  | insertAttempt _ next, n | deleteAttempts _ next, n | updateLockout _ _ next, n
  | deleteLockouts _ next, n => next.Ascends n
  | insertLockout _ _ conflict next, n => conflict.Ascends n ∧ next.Ascends n

theorem upsertLockout_ascends {next : LoginTransaction} (h : next.Ascends n) (k : LoginIdentity)
    (lockedUntil now : Timestamp) : (upsertLockout k lockedUntil now next).Ascends n := by
  intro tables
  dsimp only
  split
  · exact h
  · refine ⟨?_, h⟩
    intro tables
    dsimp only
    split
    · trivial
    · exact h

end LoginTransaction

namespace LoginThrottle
open LoginTransaction

variable {th : LoginThrottle}

/-- The loop of `record_failure` takes its advisory locks in the order of the list. -/
theorem recordEach_ascends (now : Timestamp) {next : LoginTransaction}
    (hnext : ∀ n, next.Ascends n) (ks : List LoginIdentity) (n : ℕ)
    (hs : (n :: ks.map (fun k => lockNamespace k.scope)).Pairwise (· < ·)) :
    (th.recordEach now next ks).Ascends n := by
  induction ks generalizing n with
  | nil => exact hnext n
  | cons k ks ih =>
    obtain ⟨hn, hs⟩ := List.pairwise_cons.mp hs
    have hrest := ih _ hs
    have hclear : (clearAttempts k (th.recordEach now next ks)).Ascends (lockNamespace k.scope) :=
      hrest
    refine ⟨hn _ (by simp), ?_⟩
    intro tables
    dsimp only
    split
    · exact hrest
    · intro tables
      dsimp only
      split
      · trivial
      · exact upsertLockout_ascends hclear k _ now

theorem clearEach_ascends {next : LoginTransaction} (hnext : ∀ n, next.Ascends n)
    (ks : List LoginIdentity) (n : ℕ) : (clearEach next ks).Ascends n := by
  induction ks with
  | nil => exact hnext n
  | cons k ks ih => exact ih

/-- Always the user before the IP. -/
theorem transaction_ascends (th : LoginThrottle) (login : LoginOutcome) :
    (th.transaction login).Ascends 0 := by
  have hcommit : ∀ n, commit.Ascends n := fun _ => trivial
  cases login with
  | failed username ip now =>
    show (th.recordFailure username ip now .commit).Ascends 0
    unfold recordFailure
    split
    · trivial
    · apply th.recordEach_ascends now hcommit
      simp [identities, lockNamespace]
  | succeeded username ip =>
    show (th.clear username ip .commit).Ascends 0
    unfold clear
    split
    · trivial
    · exact clearEach_ascends hcommit _ 0

end LoginThrottle

namespace LoginServer

/-- What the next statement of a transaction does to the locks and to the requests. -/
inductive Advances (s : LoginServer) (t : ℕ) (r : LoginRequest) (s' : LoginServer) : Prop
  | proceeds (r' : LoginRequest) (ha : ∀ n, r.transaction.Ascends n → r'.transaction.Ascends n)
      (hq : s'.requests = Function.update s.requests t (some r'))
      (hl : s'.locks = s.locks.resume t)
  | takesRow (r' : LoginRequest) (ha : ∀ n, r.transaction.Ascends n → r'.transaction.Ascends n)
      (hq : s'.requests = Function.update s.requests t (some r')) (id : ℕ)
      (hl : s'.locks = s.locks.acquire t (.row id))
  | takesAdvisory (k : LoginIdentity) (next : LoginTransaction)
      (htx : r.transaction = .lockIdentity k next)
      (hq : s'.requests = Function.update s.requests t (some { transaction := next }))
      (hl : s'.locks = s.locks.acquire t (.advisory k.scope (advisoryKey k.identifier)))
  | finishes (hq : s'.requests = Function.update s.requests t none)
      (hl : s'.locks = s.locks.release t)

theorem advances (s : LoginServer) (t : ℕ) (r : LoginRequest) :
    s.Advances t r (s.advance t r) := by
  obtain ⟨transaction, scan⟩ := r
  cases transaction with
  | commit => exact .finishes rfl rfl
  | raise e => exact .finishes rfl rfl
  | lockIdentity k next => exact .takesAdvisory k next rfl rfl rfl
  | select next => exact .proceeds _ (fun n h => h _) rfl rfl
  | insertAttempt attempt next => exact .takesRow { transaction := next } (fun _ h => h) rfl _ rfl
  | deleteAttempts matching next | deleteLockouts matching next =>
    match scan with
    | none => exact .proceeds _ (fun _ h => h) rfl rfl
    | some [] => exact .proceeds { transaction := next } (fun _ h => h) rfl rfl
    | some (id :: ids) =>
      unfold advance
      dsimp only
      split
      · exact .takesRow ⟨_, some ids⟩ (fun _ h => h) rfl id rfl
      · exact .proceeds ⟨_, some ids⟩ (fun _ h => h) rfl rfl
  | insertLockout k lockout conflict next =>
    unfold advance
    dsimp only
    split
    · exact .takesRow { transaction := next } (fun _ h => h.2) rfl _ rfl
    · split
      · exact .proceeds { transaction := conflict } (fun _ h => h.1) rfl rfl
      · exact .takesRow { transaction := next } (fun _ h => h.2) rfl _ rfl
  | updateLockout k lockout next =>
    unfold advance
    dsimp only
    split
    · exact .finishes rfl rfl
    · split
      · exact .takesRow { transaction := next } (fun _ h => h) rfl _ rfl
      · exact .finishes rfl rfl

/-- What an open transaction holds was taken in the order of the scopes, and what is
closed holds nothing. -/
structure Orderly (s : LoginServer) : Prop where
  open_of_holds : ∀ lock t, s.locks.holder lock = some t → (s.requests t).isSome
  ascends : ∀ t r, s.requests t = some r → ∃ n, r.transaction.Ascends n ∧
    ∀ scope key, s.locks.holder (.advisory scope key) = some t → lockNamespace scope ≤ n

theorem nextLock_advisory {s : LoginServer} {r : LoginRequest}
    (h : s.nextLock r = some (.advisory scope key)) :
    ∃ k next, r.transaction = .lockIdentity k next ∧ k.scope = scope := by
  obtain ⟨transaction, scan⟩ := r
  cases transaction with
  | lockIdentity k next =>
    obtain ⟨hs, _⟩ := LoginLock.advisory.inj (Option.some.inj h)
    exact ⟨k, next, rfl, hs⟩
  | deleteAttempts | deleteLockouts =>
    simp only [nextLock] at h
    split at h
    · split at h <;> simp at h
    · cases h
  | insertLockout | updateLockout => simp [nextLock] at h
  | commit | raise | select | insertAttempt => cases h

namespace Orderly

variable {s s' : LoginServer}

theorem atRest (h : s.AtRest) : s.Orderly where
  open_of_holds lock t hl := by
    rw [h.locks] at hl
    cases hl
  ascends t r hr := by
    rw [h.requests] at hr
    cases hr

/-- One transaction has moved, and only it may hold more than before. -/
theorem update {r : LoginRequest} (h : s.Orderly)
    (hq : s'.requests = Function.update s.requests t (some r))
    (hr : ∃ n, r.transaction.Ascends n ∧
      ∀ scope key, s'.locks.holder (.advisory scope key) = some t → lockNamespace scope ≤ n)
    (hl : ∀ lock u, s'.locks.holder lock = some u → u ≠ t → s.locks.holder lock = some u) :
    s'.Orderly where
  open_of_holds lock u hu := by
    rw [hq]
    by_cases he : u = t
    · rw [he, Function.update_self]
      rfl
    · rw [Function.update_of_ne he]
      exact h.open_of_holds lock u (hl lock u hu he)
  ascends u r' hr' := by
    rw [hq] at hr'
    by_cases he : u = t
    · rw [he, Function.update_self] at hr'
      obtain rfl := Option.some.inj hr'
      rw [he]
      exact hr
    · rw [Function.update_of_ne he] at hr'
      obtain ⟨n, ha, hn⟩ := h.ascends u r' hr'
      exact ⟨n, ha, fun scope key hu => hn scope key (hl _ u hu he)⟩

theorem start {r : LoginRequest} (h : s.Orderly) (ht : s.requests t = none)
    (ha : r.transaction.Ascends 0) (hl : s'.locks = s.locks)
    (hq : s'.requests = Function.update s.requests t (some r)) : s'.Orderly := by
  refine h.update hq ⟨0, ha, ?_⟩ ?_
  · intro scope key hu
    rw [hl] at hu
    have ho := h.open_of_holds _ t hu
    rw [ht] at ho
    cases ho
  · intro lock u hu _
    rwa [hl] at hu

theorem advances {r : LoginRequest} (h : s.Orderly) (ht : s.requests t = some r)
    (hs : s.Advances t r s') : s'.Orderly := by
  obtain ⟨n, hn, hheld⟩ := h.ascends t r ht
  cases hs with
  | proceeds r' ha hq hl =>
    refine h.update hq ⟨n, ha n hn, ?_⟩ ?_
    · intro scope key hu
      rw [hl] at hu
      exact hheld scope key hu
    · intro lock u hu _
      rwa [hl] at hu
  | takesRow r' ha hq id hl =>
    refine h.update hq ⟨n, ha n hn, ?_⟩ ?_
    · intro scope key hu
      rw [hl, LockTable.holder_acquire, if_neg (by simp)] at hu
      exact hheld scope key hu
    · intro lock u hu hne
      rw [hl, LockTable.holder_acquire] at hu
      split at hu
      · exact absurd (Option.some.inj hu).symm hne
      · exact hu
  | takesAdvisory k next htx hq hl =>
    rw [htx] at hn
    obtain ⟨hlt, hnext⟩ := hn
    refine h.update hq ⟨lockNamespace k.scope, hnext, ?_⟩ ?_
    · intro scope key hu
      rw [hl, LockTable.holder_acquire] at hu
      split at hu
      · rename_i he
        rw [(LoginLock.advisory.inj he).1]
      · exact (hheld scope key hu).trans hlt.le
    · intro lock u hu hne
      rw [hl, LockTable.holder_acquire] at hu
      split at hu
      · exact absurd (Option.some.inj hu).symm hne
      · exact hu
  | finishes hq hl =>
    constructor
    · intro lock u hu
      rw [hl] at hu
      obtain ⟨hu, hne⟩ := LockTable.holder_release hu
      rw [hq, Function.update_of_ne hne]
      exact h.open_of_holds lock u hu
    · intro u r' hr'
      rw [hq] at hr'
      have hne : u ≠ t := by
        rintro rfl
        rw [Function.update_self] at hr'
        cases hr'
      rw [Function.update_of_ne hne] at hr'
      obtain ⟨n, ha, hn⟩ := h.ascends u r' hr'
      refine ⟨n, ha, ?_⟩
      intro scope key hu
      rw [hl] at hu
      exact hn scope key (LockTable.holder_release hu).1

end Orderly

end LoginServer

namespace LoginThrottle
open LoginServer

variable {th : LoginThrottle} {s s' : LoginServer}

/-- All that a step can do to the locks and to the requests. -/
theorem serves_cases (h : th.Serves s e s') :
    (∃ t login, s.requests t = none ∧ s'.locks = s.locks ∧ s'.requests =
      Function.update s.requests t (some { transaction := th.transaction login })) ∨
    (∃ t r lock, e = .wait t ∧ s.requests t = some r ∧ s.nextLock r = some lock ∧
      s'.requests = s.requests ∧ s'.locks = s.locks.wait t lock) ∨
    ∃ t r, s.requests t = some r ∧ s.Advances t r s' := by
  cases e with
  | start t login =>
    change (if (s.requests t).isSome then none else some _) = some s' at h
    split at h
    · cases h
    · rename_i hn
      cases h
      exact .inl ⟨t, login, by simpa using hn, rfl, rfl⟩
  | scan t order =>
    obtain ⟨r, hr, h⟩ := Option.bind_eq_some_iff.mp h
    split at h
    · cases h
      exact .inr (.inr ⟨t, r, hr, .proceeds ⟨r.transaction, some order⟩ (fun _ h => h) rfl rfl⟩)
    · cases h
  | advance t =>
    obtain ⟨r, hr, h⟩ := Option.bind_eq_some_iff.mp h
    split at h
    · cases h
    · cases h
      exact .inr (.inr ⟨t, r, hr, s.advances t r⟩)
  | wait t =>
    obtain ⟨r, hr, h⟩ := Option.bind_eq_some_iff.mp h
    obtain ⟨lock, hlock, h⟩ := Option.bind_eq_some_iff.mp h
    split at h
    · cases h
      exact .inr (.inl ⟨t, r, lock, rfl, hr, hlock, rfl, rfl⟩)
    · cases h

theorem serves_orderly (h : th.Serves s e s') (ho : s.Orderly) : s'.Orderly := by
  rcases serves_cases h with ⟨t, login, ht, hl, hq⟩ | ⟨t, r, lock, _, _, _, hq, hl⟩ | ⟨t, r, ht, hs⟩
  · exact ho.start ht (th.transaction_ascends login) hl hq
  · constructor
    · intro lock u hu
      rw [hl] at hu
      rw [hq]
      exact ho.open_of_holds lock u hu
    · intro u r' hr'
      rw [hq] at hr'
      rw [hl]
      exact ho.ascends u r' hr'
  · exact ho.advances ht hs

/-- A transaction that has to wait for a row while it holds a lock, or for any lock
while it holds a row, waits for one that comes later in the order. -/
def RisingWaits (rank : LoginLock → ℕ) (s : LoginServer) : LoginEvent → Prop
  | .wait t => ∀ r lock, s.requests t = some r → s.nextLock r = some lock →
    ∀ m, s.locks.holder m = some t → (m.isRow ∨ lock.isRow) → rank m < rank lock
  | .start .. | .scan .. | .advance _ => True

theorem risingWaits_of_not_wait {rank : LoginLock → ℕ} (h : ∀ t, e ≠ .wait t) (s : LoginServer) :
    RisingWaits rank s e := by
  cases e with
  | start | scan | advance => trivial
  | wait t => exact absurd rfl (h t)

/-- The advisory locks are always waited for in the order of their scopes. -/
theorem serves_ordered {rank : LoginLock → ℕ}
    (hrank : ∀ key key', rank (.advisory .username key) < rank (.advisory .ip key'))
    (h : th.Serves s e s') (hw : RisingWaits rank s e) (ho : s.Orderly)
    (hl : s.locks.Ordered rank) : s'.locks.Ordered rank := by
  rcases serves_cases h with ⟨t, login, _, hs, _⟩ | ⟨t, r, lock, rfl, ht, hlock, _, hs⟩ |
    ⟨t, r, _, hs⟩
  · rw [hs]
    exact hl
  · rw [hs]
    apply hl.wait
    intro m hm
    by_cases hrow : m.isRow ∨ lock.isRow
    · exact hw r lock ht hlock m hm hrow
    · obtain ⟨n, ha, hn⟩ := ho.ascends t r ht
      cases m with
      | row => exact absurd (.inl rfl) hrow
      | advisory scope key =>
        cases lock with
        | row => exact absurd (.inr rfl) hrow
        | advisory scope' key' =>
          obtain ⟨k, next, htx, rfl⟩ := nextLock_advisory hlock
          rw [htx] at ha
          have hlt := (hn scope key hm).trans_lt ha.1
          cases scope <;> cases hk : k.scope <;> simp [lockNamespace, hk] at hlt
          exact hrank key key'
  · cases hs with
    | proceeds _ _ _ hs =>
      rw [hs]
      exact hl.resume t
    | takesRow _ _ _ _ hs | takesAdvisory _ _ _ _ hs =>
      rw [hs]
      exact hl.acquire t _
    | finishes _ hs =>
      rw [hs]
      exact hl.release t

theorem run_ordered {rank : LoginLock → ℕ}
    (hrank : ∀ key key', rank (.advisory .username key) < rank (.advisory .ip key'))
    (h0 : s.AtRest) (hr : Run (Guarded th.Serves (RisingWaits rank)) s trace s') :
    s'.locks.Ordered rank := by
  have hinv : s'.Orderly ∧ s'.locks.Ordered rank := by
    refine hr.invariant (I := fun s => s.Orderly ∧ s.locks.Ordered rank) ⟨.atRest h0, ?_⟩ ?_
    · rw [h0.locks]
      exact LockTable.ordered_free rank
    · intro s e t hs hstep
      exact ⟨serves_orderly hstep.1 hs.1, serves_ordered hrank hstep.1 hstep.2 hs.1 hs.2⟩
  exact hinv.2

/-- No logins wait for one another in a circle as long as some order of the locks is
kept to wherever rows are involved. -/
theorem logins_never_deadlock (rank : LoginLock → ℕ)
    (hrank : ∀ key key', rank (.advisory .username key) < rank (.advisory .ip key'))
    (h0 : s.AtRest) (hr : Run (Guarded th.Serves (RisingWaits rank)) s trace s') :
    ¬s'.locks.Deadlock :=
  (run_ordered hrank h0 hr).not_deadlock

/-- A transaction that has to wait for a row holds nothing yet. -/
def EmptyHanded (s : LoginServer) : LoginEvent → Prop
  | .wait t => ∀ r id, s.requests t = some r → s.nextLock r = some (.row id) →
    ∀ m, s.locks.holder m ≠ some t
  | .start .. | .scan .. | .advance _ => True

/-- Rows before users before IPs. -/
def rowsFirst : LoginLock → ℕ
  | .row _ => 0
  | .advisory .username _ => 1
  | .advisory .ip _ => 2

theorem EmptyHanded.risingWaits (h : EmptyHanded s e) : RisingWaits rowsFirst s e := by
  cases e with
  | start | scan | advance => trivial
  | wait t =>
    intro r lock hr hlock m hm hrow
    cases lock with
    | row id => exact absurd hm (h r id hr hlock m)
    | advisory scope key =>
      cases m with
      | advisory => rcases hrow with hrow | hrow <;> cases hrow
      | row id => cases scope <;> simp [rowsFirst]

/-- Waits for rows are harmless at the first statement that takes a lock. -/
theorem emptyHanded_never_deadlock (h0 : s.AtRest)
    (hr : Run (Guarded th.Serves EmptyHanded) s trace s') : ¬s'.locks.Deadlock := by
  have hrising : Run (Guarded th.Serves (RisingWaits rowsFirst)) s trace s' :=
    hr.mono (fun _ _ _ hs => ⟨hs.1, hs.2.risingWaits⟩)
  refine (run_ordered ?_ h0 hrising).not_deadlock
  intro key key'
  show 1 < 2
  omega

end LoginThrottle

/-- The two purges of a failed login, which find these attempts and no lockout. -/
def purgeEvents (t : ℕ) (attempts : List ℕ) : List LoginEvent :=
  .scan t attempts :: List.replicate (attempts.length + 1) (.advance t) ++ [.scan t [], .advance t]

/-- A failed login of the same user from the same address. -/
def anaFails (t : ℕ) (now : Timestamp) : LoginEvent :=
  .start t (.failed "ana" (some "10.0.0.1") now)

/-- Such a login from its start to its commit, with no other at the same time. -/
def aloneFails (now : Timestamp) : List LoginEvent :=
  anaFails 0 now :: purgeEvents 0 [] ++ List.replicate 7 (.advance 0)

/-- A second login of the user, while the first has the user's advisory lock. -/
def queueEvents : List LoginEvent :=
  (anaFails 1 0 :: purgeEvents 1 [] ++ [.advance 1]) ++ (anaFails 2 0 :: purgeEvents 2 [])

theorem queue_waits :
    (queueEvents.foldlM sampleThrottle.serve .empty).any (fun s =>
      (s.requests 2).bind s.nextLock = some (.advisory .username (advisoryKey "ana")) ∧
      s.held 2 (.advisory .username (advisoryKey "ana"))) = true := by
  decide +kernel

/-- The second login waits for the first, and that is no deadlock. -/
theorem queue_never_deadlocks :
    ∃ s', Run sampleThrottle.Serves .empty (queueEvents ++ [.wait 2]) s' ∧
      s'.locks.waiting 2 = some (.advisory .username (advisoryKey "ana")) ∧
      ¬s'.locks.Deadlock := by
  obtain ⟨s, he, hw⟩ := (Option.any_eq_true _ _).mp queue_waits
  rw [decide_eq_true_eq] at hw
  obtain ⟨r, hr, hlock⟩ := Option.bind_eq_some_iff.mp hw.1
  have hqueue : Run (Guarded sampleThrottle.Serves (LoginThrottle.RisingWaits
      LoginThrottle.rowsFirst)) .empty queueEvents s := by
    refine Run.of_foldlM ?_ he
    intro e hm s
    apply LoginThrottle.risingWaits_of_not_wait
    intro t ht
    rw [ht] at hm
    simp [queueEvents, anaFails, purgeEvents] at hm
  have hwait : sampleThrottle.Serves s (.wait 2)
      { s with locks := s.locks.wait 2 (.advisory .username (advisoryKey "ana")) } := by
    simp [LoginThrottle.Serves, LoginThrottle.serve, hr, hlock, hw.2]
  have hrising : LoginThrottle.RisingWaits LoginThrottle.rowsFirst s (.wait 2) := by
    apply LoginThrottle.EmptyHanded.risingWaits
    intro r' id hr' hrow
    obtain rfl := Option.some.inj (hr.symm.trans hr')
    rw [hlock] at hrow
    cases hrow
  have hrun := Run.snoc hqueue ⟨hwait, hrising⟩
  refine ⟨_, hrun.unguard, ?_, ?_⟩
  · rw [LockTable.waiting_wait, if_pos rfl]
  · refine LoginThrottle.logins_never_deadlock LoginThrottle.rowsFirst ?_
      LoginServer.atRest_empty hrun
    intro key key'
    show 1 < 2
    omega

/-- Two logins fail at the end of a window: the first has the user's advisory lock when
the second, a microsecond younger, purges the oldest attempt and waits for that lock. The
first reaches the threshold, and has to delete the same attempt. -/
def burstEvents : List LoginEvent :=
  [0, 1, 2, 3].flatMap aloneFails ++
    (anaFails 1 900000000 :: purgeEvents 1 [] ++ [.advance 1]) ++
    (anaFails 2 900000001 :: purgeEvents 2 [0, 1] ++ [.wait 2]) ++
    (List.replicate 5 (.advance 1) ++ [.scan 1 [0, 2, 4, 6, 8], .wait 1])

theorem burst_waits :
    (burstEvents.foldlM sampleThrottle.serve .empty).any (fun s =>
      (s.locks.waiting 1).bind s.locks.holder = some 2 ∧
      (s.locks.waiting 2).bind s.locks.holder = some 1) = true := by
  decide +kernel

/-- With the values of `config.yaml`, two failed logins of one user deadlock. -/
theorem burst_deadlocks :
    ¬∀ (th : LoginThrottle) (trace : List LoginEvent) (s s' : LoginServer),
      s.AtRest → Run th.Serves s trace s' → ¬s'.locks.Deadlock := by
  intro h
  obtain ⟨s', he, hw⟩ := (Option.any_eq_true _ _).mp burst_waits
  rw [decide_eq_true_eq] at hw
  have hr : Run (Guarded sampleThrottle.Serves fun _ _ => True) .empty burstEvents s' :=
    Run.of_foldlM (fun _ _ _ => trivial) he
  refine h sampleThrottle burstEvents .empty s' LoginServer.atRest_empty hr.unguard ?_
  exact LockTable.deadlock_of_pair (Option.bind_eq_some_iff.mp hw.1)
    (Option.bind_eq_some_iff.mp hw.2)

end FuturesBot
