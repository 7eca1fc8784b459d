import FuturesBot.Auth.Server
import FuturesBot.Lib.Runs

namespace FuturesBot
open Lib

namespace RowVersions

variable {α : Type u} {r : RowVersions α}

/-- Only this transaction, if any, has written the row. -/
def OwnedBy (t : ℕ) (r : RowVersions α) : Prop := ∀ u version, r.pending = some (u, version) → u = t

@[simp] theorem visibleTo_write (r : RowVersions α) (t : ℕ) (version : Option α) :
    (r.write t version).visibleTo t = version := by
  simp [write, visibleTo]

theorem OwnedBy.write (r : RowVersions α) (t : ℕ) (version : Option α) :
    (r.write t version).OwnedBy t := by
  intro u v h
  cases h
  rfl

theorem ownedBy_of_settled (h : r.pending = none) (t : ℕ) : r.OwnedBy t := by
  intro u v hp
  rw [h] at hp
  cases hp

theorem visibleTo_of_settled (h : r.pending = none) (t : ℕ) : r.visibleTo t = r.committed := by
  rw [visibleTo, h]

@[simp] theorem deleteIf_id (r : RowVersions α) (t id : ℕ) (p : α → Bool) :
    (r.deleteIf t id p).id = r.id := by
  unfold deleteIf
  split <;> rfl

@[simp] theorem deleteIf_committed (r : RowVersions α) (t id : ℕ) (p : α → Bool) :
    (r.deleteIf t id p).committed = r.committed := by
  unfold deleteIf
  split <;> rfl

theorem OwnedBy.deleteIf (h : r.OwnedBy t) (id : ℕ) (p : α → Bool) :
    (r.deleteIf t id p).OwnedBy t := by
  unfold RowVersions.deleteIf
  split
  · exact .write r t none
  · exact h

theorem settle_commit (h : r.OwnedBy t) : (r.settle t true).bind (·.committed) = r.visibleTo t := by
  unfold settle visibleTo
  split
  · rename_i u version hp
    rw [if_pos (h u version hp), if_pos (h u version hp)]
    cases version <;> rfl
  · rfl

theorem settle_rollback (h : r.OwnedBy t) :
    (r.settle t false).bind (·.committed) = r.committed := by
  unfold settle
  split
  · rename_i u version hp
    rw [if_pos (h u version hp)]
    cases hc : r.committed <;> simp
  · rfl

theorem settle_settled {r' : RowVersions α} (h : r.OwnedBy t) (hs : r.settle t commits = some r') :
    r'.pending = none := by
  unfold settle at hs
  split at hs
  · rename_i u version hp
    rw [if_pos (h u version hp), Option.map_eq_some_iff] at hs
    obtain ⟨a, _, rfl⟩ := hs
    rfl
  · rename_i hp
    obtain rfl := Option.some.inj hs
    exact hp

/-- The rows that a DELETE has visited are gone for it if they match. -/
theorem visibleTo_visited (r : RowVersions α) (t : ℕ) (p : α → Bool) (ids : List ℕ) :
    (ids.foldl (fun r id => r.deleteIf t id p) r).visibleTo t =
      if r.id ∈ ids ∧ (r.visibleTo t).any p then none else r.visibleTo t := by
  induction ids generalizing r with
  | nil => simp
  | cons id ids ih =>
    rw [List.foldl_cons, ih, deleteIf_id]
    by_cases hp : (r.visibleTo t).any p
    · by_cases hid : r.id = id
      · simp [deleteIf, hid, hp]
      · simp [deleteIf, hid, hp]
    · simp [deleteIf, hp]

theorem visibleTo_visited_all {p : α → Bool} {ids : List ℕ}
    (h : (r.visibleTo t).any p → r.id ∈ ids) :
    (ids.foldl (fun r id => r.deleteIf t id p) r).visibleTo t =
      (r.visibleTo t).filter (fun a => !p a) := by
  rw [visibleTo_visited]
  cases hv : r.visibleTo t with
  | none => simp
  | some a =>
    rw [hv] at h
    by_cases hp : p a
    · simp [h hp, hp, Option.filter]
    · simp [hp, Option.filter]

end RowVersions

namespace LoginServer

/-- The tables as everyone sees them. -/
def tables (s : LoginServer) : LoginTables where
  attempts := s.attempts.filterMap (·.committed)
  lockouts k := (s.lockouts.get k).bind (·.committed)

/-- Only this transaction is open, over these tables. -/
structure Alone (t : ℕ) (tables : LoginTables) (s : LoginServer) : Prop where
  requests : ∀ u, u ≠ t → s.requests u = none
  holder : ∀ lock u, s.locks.holder lock = some u → u = t
  waiting : ∀ u, s.locks.waiting u = none
  attempts : ∀ r ∈ s.attempts, r.OwnedBy t
  lockouts : ∀ k r, s.lockouts.get k = some r → r.OwnedBy t
  tables : s.tables = tables

theorem AtRest.view {s : LoginServer} (h : s.AtRest) (t : ℕ) : s.view t = s.tables := by
  have hattempts : s.attempts.filterMap (·.visibleTo t) = s.attempts.filterMap (·.committed) :=
    List.filterMap_congr (fun r hr => RowVersions.visibleTo_of_settled (h.attempts r hr) t)
  have hlockouts : (fun k => (s.lockouts.get k).bind (·.visibleTo t)) =
      fun k => (s.lockouts.get k).bind (·.committed) := by
    funext k
    cases hk : s.lockouts.get k with
    | none => rfl
    | some r => exact RowVersions.visibleTo_of_settled (h.lockouts k r hk) t
  rw [LoginServer.view, hattempts, hlockouts, LoginServer.tables]

namespace Alone

variable {s s' : LoginServer} {T : LoginTables}

theorem proceed (h : Alone t T s) (r : LoginRequest) : Alone t T (s.proceed t r) where
  requests u hu := (Function.update_of_ne hu _ _).trans (h.requests u hu)
  holder := h.holder
  waiting u := by
    show (s.locks.resume t).waiting u = none
    rw [LockTable.waiting_resume, h.waiting]
    split <;> rfl
  attempts := h.attempts
  lockouts := h.lockouts
  tables := h.tables

theorem take (h : Alone t T s) (lock : LoginLock) (r : LoginRequest) :
    Alone t T (s.take t lock r) where
  requests := (h.proceed r).requests
  holder lock' u hu := by
    change (s.locks.acquire t lock).holder lock' = some u at hu
    rw [LockTable.holder_acquire] at hu
    split at hu
    · exact (Option.some.inj hu).symm
    · exact h.holder lock' u hu
  waiting := (h.proceed r).waiting
  attempts := h.attempts
  lockouts := h.lockouts
  tables := h.tables

theorem insertAttempt (h : Alone t T s) (attempt : LoginAttempt) :
    Alone t T (s.insertAttempt t attempt) where
  requests := h.requests
  holder := h.holder
  waiting := h.waiting
  attempts r hr := by
    rcases List.mem_append.mp hr with hr | hr
    · exact h.attempts r hr
    · rw [List.mem_singleton.mp hr]
      exact .write ⟨s.nextId, none, none⟩ t _
  lockouts := h.lockouts
  tables := by
    rw [← h.tables]
    simp [LoginServer.tables, LoginServer.insertAttempt]

/-- A lockout written by the transaction keeps what everyone else sees. -/
theorem setLockout (h : Alone t T s) {row : RowVersions LoginLockout}
    (ho : row.OwnedBy t) (hc : row.committed = (s.lockouts.get k).bind (·.committed)) (n : ℕ) :
    Alone t T { s with lockouts := s.lockouts.set k row, nextId := n } where
  requests := h.requests
  holder := h.holder
  waiting := h.waiting
  attempts := h.attempts
  lockouts k' r hr := by
    rw [Dict.get_set] at hr
    split at hr
    · rw [← Option.some.inj hr]
      exact ho
    · exact h.lockouts k' r hr
  tables := by
    rw [← h.tables]
    simp only [LoginServer.tables, LoginTables.mk.injEq, true_and]
    funext k'
    rw [Dict.get_set]
    split
    · rename_i he
      rw [he]
      exact hc
    · rfl

theorem deleteRow (h : Alone t T s) (id : ℕ) (transaction : LoginTransaction) :
    Alone t T (s.deleteRow t id transaction) := by
  cases transaction with
  | deleteAttempts p next =>
    refine ⟨h.requests, h.holder, h.waiting, ?_, h.lockouts, ?_⟩
    · intro r hr
      obtain ⟨r', hr', rfl⟩ := List.mem_map.mp hr
      exact (h.attempts r' hr').deleteIf id p
    · rw [← h.tables]
      simp [LoginServer.tables, LoginServer.deleteRow, List.filterMap_map]
  | deleteLockouts p next =>
    refine ⟨h.requests, h.holder, h.waiting, h.attempts, ?_, ?_⟩
    · intro k r hr
      change (s.lockouts.get k).bind (fun r => some (r.deleteIf t id (p k))) = some r at hr
      obtain ⟨r', hr', he⟩ := Option.bind_eq_some_iff.mp hr
      rw [← Option.some.inj he]
      exact (h.lockouts k r' hr').deleteIf id (p k)
    · rw [← h.tables]
      simp only [LoginServer.tables, LoginServer.deleteRow, LoginTables.mk.injEq, true_and]
      funext k
      rw [Dict.get_filterMap]
      cases s.lockouts.get k <;> simp
  | commit | raise | lockIdentity | select | insertAttempt | insertLockout | updateLockout =>
    exact h

/-- The transaction ends. -/
theorem finish (h : Alone t T s) (commits : Bool) : (s.finish t commits).AtRest where
  requests := by
    funext u
    by_cases hu : u = t
    · rw [hu]
      exact Function.update_self _ _ _
    · exact (Function.update_of_ne hu _ _).trans (h.requests u hu)
  locks := LockTable.release_eq_free h.holder h.waiting
  attempts r hr := by
    obtain ⟨r', hr', hs⟩ := List.mem_filterMap.mp hr
    exact RowVersions.settle_settled (h.attempts r' hr') hs
  lockouts k r hr := by
    change (s.lockouts.get k).bind (fun r => r.settle t commits) = some r at hr
    obtain ⟨r', hr', hs⟩ := Option.bind_eq_some_iff.mp hr
    exact RowVersions.settle_settled (h.lockouts k r' hr') hs

theorem finish_commit (h : Alone t T s) : (s.finish t true).tables = s.view t := by
  simp only [LoginServer.tables, LoginServer.finish, LoginServer.view, LoginTables.mk.injEq,
    List.filterMap_filterMap]
  constructor
  · exact List.filterMap_congr (fun r hr => RowVersions.settle_commit (h.attempts r hr))
  · funext k
    rw [Dict.get_filterMap]
    cases hk : s.lockouts.get k with
    | none => rfl
    | some r => exact RowVersions.settle_commit (h.lockouts k r hk)

theorem finish_rollback (h : Alone t T s) : (s.finish t false).tables = T := by
  rw [← h.tables]
  simp only [LoginServer.tables, LoginServer.finish, LoginTables.mk.injEq,
    List.filterMap_filterMap]
  constructor
  · exact List.filterMap_congr (fun r hr => RowVersions.settle_rollback (h.attempts r hr))
  · funext k
    rw [Dict.get_filterMap]
    cases hk : s.lockouts.get k with
    | none => rfl
    | some r => exact RowVersions.settle_rollback (h.lockouts k r hk)

end Alone

theorem view_insertAttempt (s : LoginServer) (t : ℕ) (attempt : LoginAttempt) :
    (s.insertAttempt t attempt).view t = (s.view t).insertAttempt attempt := by
  simp [view, insertAttempt, LoginTables.insertAttempt, RowVersions.visibleTo]

theorem view_setLockout (s : LoginServer) {row : RowVersions LoginLockout}
    (hv : row.visibleTo t = some lockout) (n : ℕ) (k : LoginIdentity) :
    view { s with lockouts := s.lockouts.set k row, nextId := n } t =
      (s.view t).setLockout k lockout := by
  simp only [view, LoginTables.setLockout, LoginTables.mk.injEq, true_and]
  funext k'
  rw [Dict.get_set, Function.update_apply]
  split
  · exact hv
  · rfl

/-- All the rows in the snapshot of a DELETE, one after the other. -/
def deleteRows (s : LoginServer) (t : ℕ) (transaction : LoginTransaction) (ids : List ℕ) :
    LoginServer :=
  ids.foldl (fun s id => s.deleteRow t id transaction) s

theorem deleteRows_attempts (s : LoginServer) (t : ℕ) (p : LoginAttempt → Bool)
    (next : LoginTransaction) (ids : List ℕ) :
    s.deleteRows t (.deleteAttempts p next) ids =
      { s with attempts := s.attempts.map (fun r =>
          ids.foldl (fun r id => r.deleteIf t id p) r) } := by
  induction ids generalizing s with
  | nil => simp [deleteRows]
  | cons id ids ih =>
    rw [deleteRows, List.foldl_cons, ← deleteRows, ih]
    simp [deleteRow]

theorem view_deleteAttempts (s : LoginServer) (t : ℕ) (p : LoginAttempt → Bool)
    (next : LoginTransaction) :
    (s.deleteRows t (.deleteAttempts p next) (s.matching t (.deleteAttempts p next))).view t =
      (s.view t).deleteAttempts p := by
  rw [deleteRows_attempts]
  simp only [view, LoginTables.deleteAttempts, List.filterMap_map, LoginTables.mk.injEq, and_true,
    List.filter_filterMap]
  apply List.filterMap_congr
  intro r hr
  apply RowVersions.visibleTo_visited_all
  intro hp
  exact List.mem_map.mpr ⟨r, List.mem_filter.mpr ⟨hr, hp⟩, rfl⟩

theorem deleteRows_lockouts (s : LoginServer) (t : ℕ) (p : LoginIdentity → LoginLockout → Bool)
    (next : LoginTransaction) (ids : List ℕ) (k : LoginIdentity) :
    (s.deleteRows t (.deleteLockouts p next) ids).lockouts.get k =
      (s.lockouts.get k).map (fun r => ids.foldl (fun r id => r.deleteIf t id (p k)) r) := by
  induction ids generalizing s with
  | nil => simp [deleteRows]
  | cons id ids ih =>
    rw [deleteRows, List.foldl_cons, ← deleteRows, ih]
    show ((s.lockouts.get k).bind (fun r => some (r.deleteIf t id (p k)))).map _ = _
    cases s.lockouts.get k <;> rfl

theorem deleteRows_lockouts_attempts (s : LoginServer) (t : ℕ)
    (p : LoginIdentity → LoginLockout → Bool) (next : LoginTransaction) (ids : List ℕ) :
    (s.deleteRows t (.deleteLockouts p next) ids).attempts = s.attempts := by
  induction ids generalizing s with
  | nil => rfl
  | cons id ids ih => exact ih (s.deleteRow t id (.deleteLockouts p next))

theorem view_deleteLockouts (s : LoginServer) (t : ℕ) (p : LoginIdentity → LoginLockout → Bool)
    (next : LoginTransaction) :
    (s.deleteRows t (.deleteLockouts p next) (s.matching t (.deleteLockouts p next))).view t =
      (s.view t).deleteLockouts p := by
  simp only [view, LoginTables.deleteLockouts, LoginTables.mk.injEq, deleteRows_lockouts_attempts,
    true_and]
  funext k
  rw [deleteRows_lockouts]
  cases hk : s.lockouts.get k with
  | none => rfl
  | some r =>
    apply RowVersions.visibleTo_visited_all
    intro hp
    exact List.mem_map.mpr ⟨(k, r), List.mem_filter.mpr ⟨Dict.mem_items hk, hp⟩, rfl⟩

theorem stored_iff (s : LoginServer) (id : ℕ) :
    s.stored id ↔ (∃ r ∈ s.attempts, r.id = id) ∨ ∃ k r, s.lockouts.get k = some r ∧ r.id = id := by
  simp only [stored, Bool.or_eq_true, List.any_eq_true, decide_eq_true_eq, Dict.mem_values]
  refine or_congr Iff.rfl ?_
  constructor
  · rintro ⟨r, ⟨k, hk⟩, hid⟩
    exact ⟨k, r, hk, hid⟩
  · rintro ⟨k, r, hk, hid⟩
    exact ⟨r, ⟨k, hk⟩, hid⟩

theorem stored_of_matching {s : LoginServer} {tx : LoginTransaction} {id : ℕ}
    (h : id ∈ s.matching t tx) : s.stored id := by
  rw [stored_iff]
  cases tx with
  | deleteAttempts p next =>
    obtain ⟨r, hr, hid⟩ := List.mem_map.mp h
    exact .inl ⟨r, (List.mem_filter.mp hr).1, hid⟩
  | deleteLockouts p next =>
    obtain ⟨⟨k, r⟩, hr, hid⟩ := List.mem_map.mp h
    exact .inr ⟨k, r, Dict.get_of_mem_items (List.mem_filter.mp hr).1, hid⟩
  | commit | raise | lockIdentity | select | insertAttempt | insertLockout | updateLockout =>
    cases h

/-- A DELETE leaves its rows in place until the transaction ends. -/
theorem stored_deleteRow {s : LoginServer} {id : ℕ} (h : s.stored id) (t id' : ℕ)
    (tx : LoginTransaction) : (s.deleteRow t id' tx).stored id := by
  rw [stored_iff] at h ⊢
  cases tx with
  | deleteAttempts p next =>
    refine h.imp_left ?_
    rintro ⟨r, hr, hid⟩
    exact ⟨_, List.mem_map_of_mem hr, (r.deleteIf_id t id' p).trans hid⟩
  | deleteLockouts p next =>
    refine h.imp_right ?_
    rintro ⟨k, r, hk, hid⟩
    refine ⟨k, r.deleteIf t id' (p k), ?_, (r.deleteIf_id t id' (p k)).trans hid⟩
    show (s.lockouts.get k).bind _ = _
    rw [hk]
    rfl
  | commit | raise | lockIdentity | select | insertAttempt | insertLockout | updateLockout =>
    exact h

/-- What a DELETE does to the rows does not depend on the locks and the requests. -/
theorem view_deleteRows (s : LoginServer) (t : ℕ) (tx : LoginTransaction) (ids : List ℕ)
    (locks : LockTable ℕ LoginLock) (requests : ℕ → Option LoginRequest) :
    (deleteRows { s with locks := locks, requests := requests } t tx ids).view t =
      (s.deleteRows t tx ids).view t := by
  induction ids generalizing s with
  | nil => rfl
  | cons id ids ih =>
    have hrow : deleteRow { s with locks := locks, requests := requests } t id tx =
        { s.deleteRow t id tx with locks := locks, requests := requests } := by
      cases tx <;> rfl
    rw [deleteRows, List.foldl_cons, hrow]
    exact ih (s.deleteRow t id tx)

theorem advance_visit {s : LoginServer} {tx : LoginTransaction} {id : ℕ} (hd : tx.isDelete)
    (hs : s.stored id) (t : ℕ) (ids : List ℕ) :
    s.advance t ⟨tx, some (id :: ids)⟩ =
      (s.deleteRow t id tx).take t (.row id) ⟨tx, some ids⟩ := by
  cases tx with
  | deleteAttempts | deleteLockouts => exact if_pos hs
  | commit | raise | lockIdentity | select | insertAttempt | insertLockout | updateLockout =>
    cases hd

end LoginServer

namespace LoginThrottle
open LoginServer

variable {th : LoginThrottle} {s s' : LoginServer} {T T' : LoginTables}

/-- The server comes to rest over these tables. -/
def Finishes (th : LoginThrottle) (s : LoginServer) (tables : LoginTables) : Prop :=
  ∃ trace s', Run th.Serves s trace s' ∧ s'.AtRest ∧ s'.tables = tables

theorem Finishes.step (hs : th.Serves s e s') (h : th.Finishes s' T) : th.Finishes s T := by
  obtain ⟨trace, s'', hr, h⟩ := h
  exact ⟨e :: trace, s'', .cons hs hr, h⟩

theorem Finishes.rest (h : s.AtRest) : th.Finishes s s.tables := ⟨[], s, .nil s, h, rfl⟩

/-- Nobody blocks the only transaction. -/
theorem serves_advance (th : LoginThrottle) {r : LoginRequest} (h : Alone t T s)
    (hr : s.requests t = some r) (hu : r.unscanned = false) :
    th.Serves s (.advance t) (s.advance t r) := by
  have hb : s.blocked t r = false := by
    unfold blocked held
    cases s.nextLock r with
    | none => rfl
    | some lock =>
      cases hl : s.locks.holder lock with
      | none => simp [hl]
      | some u => simp [hl, h.holder lock u hl]
  simp [Serves, serve, hr, hu, hb]

/-- The rows of a DELETE, in the order in which they were found. -/
theorem finishes_visits {tx : LoginTransaction} (hd : tx.isDelete) (ids : List ℕ)
    (h : Alone t T s) (hr : s.requests t = some ⟨tx, some ids⟩) (hs : ∀ id ∈ ids, s.stored id)
    (hthen : ∀ s' : LoginServer, Alone t T s' → s'.requests t = some ⟨tx, some []⟩ →
      s'.view t = (s.deleteRows t tx ids).view t → th.Finishes s' T') :
    th.Finishes s T' := by
  induction ids generalizing s with
  | nil => exact hthen s h hr rfl
  | cons id ids ih =>
    have hadvance := th.serves_advance h hr (by simp [LoginRequest.unscanned])
    rw [advance_visit hd (hs id (by simp))] at hadvance
    refine .step hadvance (ih ((h.deleteRow id tx).take _ _) ?_ ?_ ?_)
    · exact Function.update_self _ _ _
    · intro id' hid
      exact stored_deleteRow (hs id' (List.mem_cons_of_mem _ hid)) t id tx
    · intro s' h' hr' hv
      apply hthen s' h' hr'
      exact hv.trans (view_deleteRows (s.deleteRow t id tx) t tx ids _ _)

/-- A DELETE finds its rows, deletes them and gives way to the next statement. -/
theorem finishes_delete {tx next : LoginTransaction} (hd : tx.isDelete)
    (hlast : ∀ s' : LoginServer, s'.advance t ⟨tx, some []⟩ = s'.proceed t { transaction := next })
    (h : Alone t T s) (hr : s.requests t = some { transaction := tx })
    (hthen : ∀ s' : LoginServer, Alone t T s' → s'.requests t = some { transaction := next } →
      s'.view t = (s.deleteRows t tx (s.matching t tx)).view t → th.Finishes s' T') :
    th.Finishes s T' := by
  have hscan : th.Serves s (.scan t (s.matching t tx))
      (s.proceed t ⟨tx, some (s.matching t tx)⟩) := by
    have hperm : (s.matching t tx).isPerm (s.matching t tx) :=
      List.isPerm_iff.mpr (.refl _)
    simp [Serves, serve, hr, LoginRequest.unscanned, hd, hperm]
  refine .step hscan (finishes_visits hd _ (h.proceed _) (Function.update_self _ _ _) ?_ ?_)
  · intro id hid
    exact stored_of_matching (s := s) hid
  · intro s' h' hr' hv
    have hadvance := th.serves_advance h' hr' (by simp [LoginRequest.unscanned])
    rw [hlast] at hadvance
    refine .step hadvance (hthen _ (h'.proceed _) (Function.update_self _ _ _) ?_)
    exact hv.trans (view_deleteRows s t tx _ _ _)

/-- A transaction that is served alone leaves what running it leaves, and one that
raises leaves the tables as they were. -/
theorem finishes_run (th : LoginThrottle) (tx : LoginTransaction) (h : Alone t T s)
    (hr : s.requests t = some { transaction := tx }) :
    th.Finishes s ((tx.run (s.view t)).toOption.getD T) := by
  induction tx generalizing s with
  | commit =>
    refine .step (th.serves_advance h hr rfl) ?_
    rw [show s.view t = (s.finish t true).tables from h.finish_commit.symm]
    exact .rest (h.finish true)
  | raise e =>
    refine .step (th.serves_advance h hr rfl) ?_
    have hrest := (Finishes.rest (h.finish false) : th.Finishes _ _)
    rw [h.finish_rollback] at hrest
    exact hrest
  | lockIdentity k next ih =>
    exact .step (th.serves_advance h hr rfl) (ih (h.take _ _) (Function.update_self _ _ _))
  | select next ih =>
    exact .step (th.serves_advance h hr rfl) (ih _ (h.proceed _) (Function.update_self _ _ _))
  | insertAttempt attempt next ih =>
    refine .step (th.serves_advance h hr rfl) ?_
    have hnext := ih ((h.insertAttempt attempt).take (.row s.nextId) { transaction := next })
      (Function.update_self _ _ _)
    rw [LoginTransaction.run, ← view_insertAttempt]
    exact hnext
  | deleteAttempts p next ih =>
    refine finishes_delete rfl (fun _ => rfl) h hr ?_
    intro s' h' hr' hv
    rw [LoginTransaction.run, ← view_deleteAttempts s t p next, ← hv]
    exact ih h' hr'
  | deleteLockouts p next ih =>
    refine finishes_delete rfl (fun _ => rfl) h hr ?_
    intro s' h' hr' hv
    rw [LoginTransaction.run, ← view_deleteLockouts s t p next, ← hv]
    exact ih h' hr'
  | insertLockout k lockout conflict next ihc ih =>
    refine .step (th.serves_advance h hr rfl) ?_
    have hview : (s.view t).getLockout k = (s.lockouts.get k).bind (·.visibleTo t) := rfl
    rw [LoginTransaction.run, hview]
    unfold advance
    dsimp only
    cases hk : s.lockouts.get k with
    | none =>
      have hv := RowVersions.visibleTo_write ⟨s.nextId, none, none⟩ t (some lockout)
      rw [Option.bind_none, if_neg (by simp), ← view_setLockout s hv (s.nextId + 1)]
      refine ih ((h.setLockout (.write ⟨s.nextId, none, none⟩ t (some lockout)) ?_ _).take _ _)
        (Function.update_self _ _ _)
      rw [hk]
      rfl
    | some row =>
      rw [Option.bind_some]
      dsimp only
      split
      · exact ihc (h.proceed _) (Function.update_self _ _ _)
      · rw [← view_setLockout s (row.visibleTo_write t (some lockout)) s.nextId]
        refine ih ((h.setLockout (.write row t (some lockout)) ?_ s.nextId).take _ _)
          (Function.update_self _ _ _)
        rw [hk]
        rfl
  | updateLockout k lockout next ih =>
    refine .step (th.serves_advance h hr rfl) ?_
    have hview : (s.view t).getLockout k = (s.lockouts.get k).bind (·.visibleTo t) := rfl
    have hrest := (Finishes.rest (h.finish false) : th.Finishes _ _)
    rw [h.finish_rollback] at hrest
    rw [LoginTransaction.run, hview]
    unfold advance
    dsimp only
    cases hk : s.lockouts.get k with
    | none => exact hrest
    | some row =>
      rw [Option.bind_some]
      dsimp only
      split
      · rw [← view_setLockout s (row.visibleTo_write t (some lockout)) s.nextId]
        refine ih ((h.setLockout (.write row t (some lockout)) ?_ s.nextId).take _ _)
          (Function.update_self _ _ _)
        rw [hk]
        rfl
      · exact hrest

/-- A login that is served alone does to the tables what its transaction says. -/
theorem alone_agrees (th : LoginThrottle) (h0 : s.AtRest) (t : ℕ) (login : LoginOutcome) :
    th.Finishes s (((th.transaction login).run s.tables).toOption.getD s.tables) := by
  have hstart : th.Serves s (.start t login) { s with
      requests :=
        Function.update s.requests t (some { transaction := th.transaction login }) } := by
    simp [Serves, serve, h0.requests]
  have halone : Alone t s.tables { s with
      requests :=
        Function.update s.requests t (some { transaction := th.transaction login }) } := by
    refine ⟨?_, ?_, ?_, ?_, ?_, rfl⟩
    · intro u hu
      exact (Function.update_of_ne hu _ _).trans (congrFun h0.requests u)
    · intro lock u hu
      rw [h0.locks] at hu
      cases hu
    · intro u
      rw [h0.locks]
      rfl
    · intro r hr
      exact RowVersions.ownedBy_of_settled (h0.attempts r hr) t
    · intro k r hr
      exact RowVersions.ownedBy_of_settled (h0.lockouts k r hr) t
  have hrun := th.finishes_run (th.transaction login) halone (Function.update_self _ _ _)
  have hview := h0.view t
  rw [← hview] at hrun ⊢
  exact .step hstart hrun

end LoginThrottle

end FuturesBot
