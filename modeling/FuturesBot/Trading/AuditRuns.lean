import FuturesBot.Trading.AuditTrail

namespace FuturesBot
open Lib CycleRunner Session

/-- What a completed risk validation has written: the tables as it left them, and the
number of commits before it. -/
structure Written where
  commits : ℕ
  rows : AuditTables

def CycleRunner.writtenBy (A : ExchangeAdapter σ) (config : AppConfig) (o : DecisionSources)
    (reliable : Bool) (snapshot : MarketSnapshot) (st : PipelineState σ) : List Written :=
  ((verdict A config o reliable snapshot st).map
    (fun v => ⟨st.session.commits, v.rows⟩)).toList

/-- The state of the pipeline, with what the turns of the run have written. -/
structure AuditState (σ : Type u) extends PipelineState σ where
  trail : List Written := []

inductive AuditEvent
  | turn (o : DecisionSources) (reliable : Bool) (snapshot : MarketSnapshot)
  | reread (latest : StateRead)
  | safeMode (v : TriggerRead)
  | other

/-- Whatever happens to the session between the turns, and the turns themselves. -/
inductive AuditStep (A : ExchangeAdapter σ) (config : AppConfig) :
    AuditState σ → AuditEvent → AuditState σ → Prop
  | turn {st : AuditState σ} (o : DecisionSources) (reliable : Bool) (snapshot : MarketSnapshot) :
      AuditStep A config st (.turn o reliable snapshot)
        ⟨processNested A config o reliable snapshot st.toPipelineState,
          st.trail ++ writtenBy A config o reliable snapshot st.toPipelineState⟩
  | reread {st : AuditState σ} (latest : StateRead) (s : Supervisor) (h : s.session = st.session) :
      AuditStep A config st (.reread latest)
        { st with session := (s.syncStateFromDb latest).session }
  | safeMode {st : AuditState σ} (v : TriggerRead) (s : Supervisor) (h : s.session = st.session) :
      AuditStep A config st (.safeMode v) { st with session := (s.attemptSafeMode v).session }
  | assessed {st : AuditState σ} (row : VolatilityAssessmentRow) :
      AuditStep A config st .other
        { st with session := st.session.addVolatilityAssessment row }
  | commit {st : AuditState σ} : AuditStep A config st .other
      { st with session := st.session.commit }
  -- Reads, exits and the new count of a tick, which leave the session alone.
  | elsewhere {st : AuditState σ} (d : Desk σ) (n : ℤ) :
      AuditStep A config st .other { st with toDesk := d, openedThisTick := n }

/-- Every row that a validation has written is there once there has been a commit. -/
def Survives (st : AuditState σ) : Prop :=
  ∀ w ∈ st.trail, w.commits < st.session.commits → w.rows ≤ st.session.committed.audits

/-- Every audit row that the session sees has been committed. -/
def NothingPending (s : Session) : Prop := s.working.audits ≤ s.committed.audits

/-- A trigger that does not persist takes the whole session back. -/
def TriggerRead.rollsBack : TriggerRead → Bool
  | .failed => true
  | .view v persists =>
    !((EmergencyStopService.admission v .safeMode (some [.active])).isOk && persists)

/-- What a step must find for no audit row to be lost by it. -/
def KeepsTrail (A : ExchangeAdapter σ) (config : AppConfig) (st : AuditState σ) :
    AuditEvent → Prop
  | .turn o reliable snapshot => TurnKept A config o reliable snapshot st.toPipelineState
  | .reread .failed => NothingPending st.session
  | .reread (.read _) => True
  | .safeMode v => v.rollsBack → NothingPending st.session
  | .other => True

theorem KeepsAudits.rollback_iff {s : Session} :
    s.KeepsAudits s.rollback ↔ NothingPending s :=
  Store.Keeps.rollback_iff (s := s.audits)

theorem Supervisor.attemptSafeMode_session (v : TriggerRead) (s : Supervisor) :
    (s.attemptSafeMode v).session =
      if v.rollsBack then s.session.rollback else s.session.commit := by
  unfold attemptSafeMode TriggerRead.rollsBack
  cases v with
  | failed => rfl
  | view v persists =>
    dsimp only
    split
    · rename_i ha
      simp [ha, Except.isOk, Except.toBool]
    · rename_i persists _ _ hne
      unfold triggerSafeMode
      dsimp only
      split
      · rename_i current ha
        cases persists with
        | true => simp [ha, Except.isOk, Except.toBool]
        | false => exact absurd rfl (hne current ha)
      · rename_i e ha
        simp [ha, Except.isOk, Except.toBool]

/-- Only a failed read of the state touches the session. -/
theorem Supervisor.syncStateFromDb_session (latest : Option String) (s : Supervisor) :
    (s.syncStateFromDb (.read latest)).session = s.session := by
  unfold syncStateFromDb
  cases latest with
  | none => rfl
  | some raw =>
    dsimp only
    split <;> rfl

/-- Between the turns no audit row is lost. -/
theorem AuditStep.keeps (h : AuditStep A config st e st') (hok : KeepsTrail A config st e) :
    st.session.KeepsAudits st'.session := by
  cases h with
  | turn o reliable snapshot => exact KeepsAudits.turnWrites.processNested _ _ _ _ _ _
  | reread latest s h =>
    dsimp only
    rw [← h]
    cases latest with
    | failed =>
      have hn : NothingPending st.session := hok
      rw [← h] at hn
      exact KeepsAudits.rollback_iff.mpr hn
    | read latest =>
      rw [Supervisor.syncStateFromDb_session]
      exact KeepsAudits.turnWrites.refl _
  | safeMode v s h =>
    have hn : v.rollsBack → NothingPending s.session := by
      rw [h]
      exact hok
    dsimp only
    rw [Supervisor.attemptSafeMode_session, ← h]
    split
    · rename_i hv
      exact KeepsAudits.rollback_iff.mpr (hn hv)
    · exact KeepsAudits.turnWrites.commit _
  | assessed row => exact .refl st.session.audits
  | commit => exact KeepsAudits.turnWrites.commit st.session
  | elsewhere d n => exact .refl st.session.audits

/-- Every row that a validation has written is still seen, and has been stored with the
first commit after it. -/
def Held (st : AuditState σ) : Prop :=
  ∀ w ∈ st.trail, Store.Holds w.commits w.rows st.session.audits

theorem Held.step (h : Held st) (hs : Guarded (AuditStep A config) (KeepsTrail A config) st e st') :
    Held st' := by
  obtain ⟨hs, hok⟩ := hs
  have hk := hs.keeps hok
  intro w hw
  cases hs with
  | turn o reliable snapshot =>
    rcases List.mem_append.mp hw with hw | hw
    · exact (h w hw).keeps hk
    · obtain ⟨v, hv, rfl⟩ := by simpa [writtenBy] using hw
      have hkept : TurnKept A config o reliable snapshot st.toPipelineState := hok
      exact hkept.holds hv
  | reread | safeMode | assessed | commit | elsewhere => exact (h w hw).keeps hk

theorem Held.survives (h : Held st) : Survives st := fun w hw => (h w hw).committed

/-- In a run whose steps find what they must, the rows of every completed validation are
there at the next commit, and from then on. -/
theorem audit_rows_survive (h₀ : st.trail = [])
    (hr : Run (Guarded (AuditStep A config) (KeepsTrail A config)) st es st') : Survives st' := by
  have hstart : Held st := by simp [Held, h₀]
  have hheld : Held st' := hr.invariant hstart (fun _ _ _ h hs => h.step hs)
  exact hheld.survives

/-- The simulation behind a transport on which every order times out. -/
def timingOut : ExchangeAdapter BookedPaper :=
  { PaperAdapter.booked with placeOrder := fun _ x => (.error (.external "timeout"), x) }

def freshTrail : AuditState BookedPaper := { freshRun with }

def approvedTurn (A : ExchangeAdapter BookedPaper) : AuditState BookedPaper :=
  ⟨processNested A defaultConfig (tenfoldSources "first") true sampleSnapshot freshRun,
    writtenBy A defaultConfig (tenfoldSources "first") true sampleSnapshot freshRun⟩

theorem approved_step (A : ExchangeAdapter BookedPaper) : AuditStep A defaultConfig freshTrail
    (.turn (tenfoldSources "first") true sampleSnapshot) (approvedTurn A) := .turn _ _ _

/-- The first entry of the simulation is executed, so what authorised it is kept. -/
theorem executed_survives : Survives (approvedTurn PaperAdapter.booked) := by
  have hdone : (processSymbol PaperAdapter.booked defaultConfig (tenfoldSources "first") true
      sampleSnapshot freshRun).1.isOk = true := by decide +kernel
  have hkept : TurnKept PaperAdapter.booked defaultConfig (tenfoldSources "first") true
      sampleSnapshot freshRun := by
    intro _ v hv hx
    rw [processSymbol_verdict hv, if_pos hx] at hdone
    rcases he : enter PaperAdapter.booked defaultConfig sampleSnapshot v.decision v.result
      v.slippage v.state with ⟨e | _, st'⟩
    · rw [he] at hdone
      cases hdone
    · exact (enter_completes_iff he).mp (.inl rfl)
  have hempty : freshTrail.trail = [] := rfl
  exact audit_rows_survive hempty (.snoc (.nil _) ⟨approved_step _, hkept⟩)

/-- When its order times out, the validation that authorised it is gone at the next
commit. -/
theorem timeout_drops_audit :
    ¬∀ (A : ExchangeAdapter BookedPaper) (config : AppConfig) (es : List AuditEvent)
      (st st' : AuditState BookedPaper), st.trail = [] → Run (AuditStep A config) st es st' →
      Survives st' := by
  intro h
  have hrun : Run (AuditStep timingOut defaultConfig) freshTrail
      ([.turn (tenfoldSources "first") true sampleSnapshot] ++ [.other])
      { approvedTurn timingOut with session := (approvedTurn timingOut).session.commit } :=
    .snoc (.snoc (.nil _) (approved_step timingOut)) .commit
  have hwritten : (writtenBy timingOut defaultConfig (tenfoldSources "first") true sampleSnapshot
      freshRun).map (fun w => (w.commits, w.rows.riskValidations.length)) = [(0, 1)] := by
    decide +kernel
  have hlost : (approvedTurn timingOut).session.commits = 0 ∧
      (approvedTurn timingOut).session.working.riskValidations.length = 0 := by decide +kernel
  obtain ⟨w, hw, hlen⟩ := List.map_eq_singleton_iff.mp hwritten
  obtain ⟨hc, hr⟩ := Prod.mk.inj hlen
  have hmem : w ∈ (approvedTurn timingOut).trail := by
    rw [approvedTurn, hw]
    exact List.mem_singleton_self w
  have hkept := (h _ _ _ _ _ rfl hrun w hmem (by simp [hc, Session.commit])).2.2.length_le
  have hnone : ((approvedTurn timingOut).session.commit.committed.audits).riskValidations.length =
      0 := hlost.2
  rw [hnone, hr] at hkept
  omega

/-- The loop gets from the one state to the other by steps of a run. -/
def AuditReaches (A : ExchangeAdapter σ) (config : AppConfig) (st st' : PipelineState σ) : Prop :=
  ∀ trail, ∃ trail' es, Run (AuditStep A config) ⟨st, trail⟩ es ⟨st', trail'⟩

theorem AuditReaches.step (h : AuditStep A config ⟨st, trail⟩ e ⟨st', trail'⟩) :
    ∃ trail' es, Run (AuditStep A config) ⟨st, trail⟩ es ⟨st', trail'⟩ :=
  ⟨trail', [e], .snoc (.nil _) h⟩

theorem AuditReaches.loopSteps (A : ExchangeAdapter σ) (config : AppConfig) :
    LoopSteps A config (AuditReaches A config) where
  refl st trail := ⟨trail, [], .nil _⟩
  trans h h' trail := by
    obtain ⟨trail₁, es, hr⟩ := h trail
    obtain ⟨trail₂, es', hr'⟩ := h' trail₁
    exact ⟨trail₂, es ++ es', hr.append hr'⟩
  nextTick st _ := AuditReaches.step (.elsewhere st.toDesk 0)
  account st _ := AuditReaches.step (.elsewhere { st.toDesk with exchange := _ } _)
  assessed row _ _ := AuditReaches.step (.assessed row)
  commit _ _ := AuditReaches.step .commit
  safeMode v s _ _ _ := AuditReaches.step (.safeMode v s rfl)
  reread latest s _ _ _ := AuditReaches.step (.reread latest s rfl)
  exit _ _ := AuditReaches.step (.elsewhere _ _)
  reconciled _ _ st _ := AuditReaches.step (.elsewhere { st.toDesk with exchange := _ } _)
  turn o reliable snapshot _ _ := AuditReaches.step (.turn o reliable snapshot)

namespace CycleRunner

/-- The loop of the worker is a run of these steps. -/
theorem run_audited (A : ExchangeAdapter σ) (config : AppConfig) (wiring : Wiring)
    (its : List Iteration) (w : Worker σ) (n : ℤ) :
    ∃ n', AuditReaches A config (w.trading n) ((run A config wiring its w).2.trading n') :=
  (AuditReaches.loopSteps A config).run wiring its w n

theorem marketStage_nothingPending (hm : wiring.marketData)
    (h : marketStage A config wiring i w = (.ok snapshots, w')) : NothingPending w'.session := by
  unfold marketStage at h
  rw [if_pos hm] at h
  dsimp only at h
  split at h
  · cases h
  · rename_i ht
    unfold MarketDataCycleService.tickAll at ht
    split at ht
    · cases ht
    · cases ht
      cases h
      exact le_rfl

theorem enforce_nothingPending (findings : Bool) (v : TriggerRead) {s : Supervisor}
    (h : NothingPending s.session) : NothingPending (s.enforce findings v).session := by
  unfold Supervisor.enforce
  split
  · rw [Supervisor.attemptSafeMode_session]
    split
    · exact le_rfl
    · exact le_rfl
  · exact h

/-- The triggers of a tick come after the commit of its market data, and find nothing
that they could take back. -/
theorem triggers_find_nothingPending (hm : wiring.marketData)
    (h : marketStage A config wiring i w = (.ok snapshots, w₁)) :
    NothingPending w₁.session ∧ NothingPending
      (positionStage A wiring i (healthStage config wiring i snapshots w₁)).session := by
  have hmarket := marketStage_nothingPending hm h
  have hhealth : NothingPending (healthStage config wiring i snapshots w₁).session := by
    unfold healthStage
    split
    · exact enforce_nothingPending _ _ hmarket
    · exact hmarket
  refine ⟨hmarket, ?_⟩
  unfold positionStage
  split
  · exact hhealth
  · exact hhealth

end CycleRunner

end FuturesBot
