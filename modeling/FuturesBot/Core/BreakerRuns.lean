import FuturesBot.Core.RetryAlone
import Mathlib.Data.List.DropRight

namespace FuturesBot
open Lib

variable {ω ε α : Type} {W : RetryWorld ω}

/-- The failures that a log ends with. -/
def failuresInARow (log : List (Attempt ε)) : ℕ := (log.rtakeWhile (·.failure.isSome)).length

theorem failuresInARow_snoc (log : List (Attempt ε)) (a : Attempt ε) :
    failuresInARow (log ++ [a]) = if a.failure.isSome then failuresInARow log + 1 else 0 := by
  rw [failuresInARow, List.rtakeWhile_concat]
  split
  · rw [List.length_append, List.length_singleton, failuresInARow]
  · rfl

/-- Enough failures in a row for the breaker to be open. -/
def Tripped (config : CircuitBreakerConfig) (log : List (Attempt ε)) : Prop :=
  0 < failuresInARow log ∧ config.failureThreshold ≤ failuresInARow log

/-- What a breaker promises of the next operation that runs: after enough failures it has
waited for the timeout, and if the circuit was open its failure has opened it again and its
success has closed it. -/
structure Obeys (config : CircuitBreakerConfig) (before : List (Attempt ε)) (a : Attempt ε) :
    Prop where
  waited : Tripped config before → ∃ last ∈ before.getLast?, ∃ b opened checked,
    last.left = some b ∧ b.state = .open ∧ b.openedAt = some opened ∧
    a.checkedAt = some checked ∧ config.resetTimeoutSeconds ≤ checked - opened
  settled : a.checkedAt.isSome → ∃ b, a.left = some b ∧
    if a.failure.isSome then b.state = .open else b.state = .closed ∧ b.consecutiveFailures = 0

namespace CircuitBreaker

theorem onFailure_counts (W : RetryWorld ω) (b : CircuitBreaker) (w : ω) :
    (b.onFailure W w).1.config = b.config ∧
    (b.onFailure W w).1.consecutiveFailures = b.consecutiveFailures + 1 := by
  unfold onFailure
  dsimp only
  split <;> exact ⟨rfl, rfl⟩

theorem onFailure_opens (W : RetryWorld ω) {b : CircuitBreaker} (w : ω)
    (h : b.state = .halfOpen ∨ b.config.failureThreshold ≤ (b.consecutiveFailures + 1 : ℕ)) :
    (b.onFailure W w).1.state = .open ∧ (b.onFailure W w).1.openedAt.isSome := by
  unfold onFailure
  rw [if_pos h]
  exact ⟨rfl, rfl⟩

end CircuitBreaker

/-- What holds of a breaker and its log between two operations. -/
structure FailuresCounted (config : CircuitBreakerConfig) (s : RetryState ω ε)
    (b : CircuitBreaker) : Prop where
  breaker : s.breaker = some b
  config_eq : b.config = config
  last : ∀ last ∈ s.log.getLast?, last.left = some b
  counts : failuresInARow s.log ≤ b.consecutiveFailures
  tripped : Tripped config s.log → b.state = .open ∧ b.openedAt.isSome
  obeys : EachAfter (Obeys config) s.log

namespace FailuresCounted

variable {config : CircuitBreakerConfig} {s s₁ : RetryState ω ε} {b : CircuitBreaker}

theorem world (h : FailuresCounted config s b) (w : ω) :
    FailuresCounted config { s with world := w } b :=
  ⟨h.breaker, h.config_eq, h.last, h.counts, h.tripped, h.obeys⟩

theorem refused (h : FailuresCounted config s b) (hbefore : s.beforeCall W = (.error e, s₁)) :
    FailuresCounted config s₁ b := by
  obtain ⟨b', w', hadmission, rfl⟩ := RetryState.beforeCall_breaker h.breaker hbefore
  obtain rfl := hadmission.of_error
  exact ⟨rfl, h.config_eq, h.last, h.counts, h.tripped, h.obeys⟩

/-- What is known of an operation that the breaker has let through, with `b₁` left to record
its outcome. -/
theorem admitted (h : FailuresCounted config s b) (hbefore : s.beforeCall W = (.ok checkedAt, s₁)) :
    ∃ b₁, s₁.breaker = some b₁ ∧ s₁.log = s.log ∧ b₁.config = config ∧
      b₁.consecutiveFailures = b.consecutiveFailures ∧
      (checkedAt.isSome → b₁.state = .halfOpen) ∧
      (Tripped config s.log → ∃ last ∈ s.log.getLast?, ∃ b opened checked,
        last.left = some b ∧ b.state = .open ∧ b.openedAt = some opened ∧
        checkedAt = some checked ∧ config.resetTimeoutSeconds ≤ checked - opened) := by
  have hlog := s.beforeCall_log W
  rw [hbefore] at hlog
  obtain ⟨b₁, w₁, hadmission, rfl⟩ := RetryState.beforeCall_breaker h.breaker hbefore
  refine ⟨b₁, rfl, hlog, ?_⟩
  cases hadmission with
  | passes hstate =>
    refine ⟨h.config_eq, rfl, by simp, ?_⟩
    intro htripped
    exact absurd (h.tripped htripped).1 hstate
  | probes hstate hopened hlate =>
    refine ⟨h.config_eq, rfl, fun _ => rfl, ?_⟩
    intro htripped
    have hne : s.log ≠ [] := by
      rintro hnil
      rw [hnil] at htripped
      exact absurd htripped.1 (Nat.lt_irrefl 0)
    rw [h.config_eq] at hlate
    exact ⟨s.log.getLast hne, List.getLast?_eq_some_getLast hne, b, _, _,
      h.last _ (List.getLast?_eq_some_getLast hne), hstate, hopened, rfl, hlate⟩

theorem succeeded (h : FailuresCounted config s b) (hbefore : s.beforeCall W = (.ok checkedAt, s₁))
    (w : ω) : ∃ b', FailuresCounted config ({ s₁ with world := w }.onSuccess checkedAt) b' := by
  obtain ⟨b₁, hb₁, hlog, hconfig, -, -, hwaited⟩ := h.admitted hbefore
  refine ⟨b₁.onSuccess, ?_⟩
  have hzero : failuresInARow (s.log ++ [⟨checkedAt, none, some b₁.onSuccess⟩]) = 0 := by
    simp [failuresInARow_snoc]
  simp only [RetryState.onSuccess, hb₁, hlog, Option.map_some]
  refine ⟨rfl, hconfig, by simp, ?_, ?_, ?_⟩
  · exact hzero.le
  · intro htripped
    exact absurd htripped.1 (by simp [hzero])
  · refine h.obeys.snoc ⟨hwaited, fun _ => ⟨_, rfl, ?_⟩⟩
    exact ⟨rfl, rfl⟩

theorem failed (h : FailuresCounted config s b) (hbefore : s.beforeCall W = (.ok checkedAt, s₁))
    (e : ε) (w : ω) : ∃ b', FailuresCounted config ({ s₁ with world := w }.onFailure W checkedAt e) b' := by
  obtain ⟨b₁, hb₁, hlog, hconfig, hsame, htrial, hwaited⟩ := h.admitted hbefore
  obtain ⟨hconfig', hcount⟩ := b₁.onFailure_counts W w
  have hopens := CircuitBreaker.onFailure_opens W (b := b₁) w
  refine ⟨(b₁.onFailure W w).1, ?_⟩
  simp only [RetryState.onFailure, hb₁, hlog]
  have hrow : failuresInARow (s.log ++ [⟨checkedAt, some e, some (b₁.onFailure W w).1⟩]) =
      failuresInARow s.log + 1 := by
    simp [failuresInARow_snoc]
  refine ⟨rfl, hconfig'.trans hconfig, by simp, ?_, ?_, ?_⟩
  · rw [hrow, hcount, hsame]
    exact Nat.succ_le_succ h.counts
  · intro htripped
    apply hopens
    have hthreshold := htripped.2
    have hcounts := h.counts
    rw [hrow] at hthreshold
    rw [hconfig, hsame]
    omega
  · refine h.obeys.snoc ⟨hwaited, fun hchecked => ⟨_, rfl, ?_⟩⟩
    exact (hopens (.inl (htrial hchecked))).1

theorem kept (W : RetryWorld ω) (config : CircuitBreakerConfig) :
    KeptByAttempts (ε := ε) W (fun s => ∃ b, FailuresCounted config s b) where
  world w := fun ⟨b, h⟩ => ⟨b, h.world w⟩
  refused := fun ⟨b, h⟩ hbefore => ⟨b, h.refused hbefore⟩
  succeeded w := fun ⟨_, h⟩ hbefore => h.succeeded hbefore w
  failed e w := fun ⟨_, h⟩ hbefore => h.failed hbefore e w

end FailuresCounted

/-- A call of either kind with nothing beside it, or what happens in between. -/
inductive CallStep (W : RetryWorld ω) : RetryState ω ε → RetryState ω ε → Prop
  | sync {α : Type} (c : RetryCall ω ε α) (s : RetryState ω ε) : CallStep W s (c.retrySync W s).2
  | async {α : Type} (c : RetryCall ω ε α) {s s' : RetryState ω ε}
      {result : Except (RetryError ε) α} (h : c.retryAsyncAlone W s = some (result, s')) :
      CallStep W s s'
  | between (w : ω) (s : RetryState ω ε) : CallStep W s { s with world := w }

theorem CallStep.keeps {P : RetryState ω ε → Prop} (h : CallStep W s s') (hP : KeptByAttempts W P)
    (hs : P s) : P s' := by
  cases h with
  | sync c s => exact hP.retrySync c s hs
  | async c h => exact hP.retryAsyncAlone hs h
  | between w s => exact hP.world w hs

end FuturesBot
