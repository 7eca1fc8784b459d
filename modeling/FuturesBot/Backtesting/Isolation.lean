import FuturesBot.Backtesting.Validation

namespace FuturesBot
open Lib

structure SplitBacktestResult where
  inSample : BacktestRunResult
  outOfSample : BacktestRunResult
  trainRatio : Amount

structure WalkForwardFoldResult where
  foldIndex : ℕ
  trainResult : BacktestRunResult
  testResult : BacktestRunResult

structure WalkForwardResult where
  foldResults : List WalkForwardFoldResult
  nFolds : ℕ
  minTrainCandles : ℤ

/-- Nothing happens without a `reset_fn`. -/
def callReset : Option (Call ρ Unit) → Call ρ Unit
  | none => fun p => (.ok (), p)
  | some resetFn => resetFn

namespace BacktestingEngine

variable (e : BacktestingEngine) (config : BacktestConfig) (provider : SignalProvider ρ)
  (resetFn : Option (Call ρ Unit))

/-- A backtest as the next caller of the provider finds it. -/
def backtestFrom (candles : List CandleRow) : Call ρ BacktestRunResult := fun p =>
  (e.backtest config candles provider p, (e.run candles provider p).2.provider)

def runSplitBacktest (product : ℕ → Amount → ℤ) (candles : List CandleRow) (trainRatio : Amount) :
    Call ρ SplitBacktestResult := fun p =>
  match splitDataset product candles trainRatio with
  | .error err => (.error err, p)
  | .ok split =>
    match e.backtestFrom config provider split.train p with
    | (.error err, p) => (.error err, p)
    | (.ok inSample, p) =>
      match callReset resetFn p with
      | (.error err, p) => (.error err, p)
      | (.ok (), p) =>
        match e.backtestFrom config provider split.test p with
        | (.error err, p) => (.error err, p)
        | (.ok outOfSample, p) => (.ok ⟨inSample, outOfSample, trainRatio⟩, p)

/-- The first fold finds the provider as it is given. -/
def runFold (fold : WalkForwardFold) : Call ρ WalkForwardFoldResult := fun p =>
  match if 0 < fold.foldIndex then callReset resetFn p else (.ok (), p) with
  | (.error err, p) => (.error err, p)
  | (.ok (), p) =>
    match e.backtestFrom config provider fold.train p with
    | (.error err, p) => (.error err, p)
    | (.ok trainResult, p) =>
      match callReset resetFn p with
      | (.error err, p) => (.error err, p)
      | (.ok (), p) =>
        match e.backtestFrom config provider fold.test p with
        | (.error err, p) => (.error err, p)
        | (.ok testResult, p) => (.ok ⟨fold.foldIndex, trainResult, testResult⟩, p)

def runFolds : List WalkForwardFold → Call ρ (List WalkForwardFoldResult)
  | [], p => (.ok [], p)
  | fold :: folds, p =>
    match e.runFold config provider resetFn fold p with
    | (.error err, p) => (.error err, p)
    | (.ok result, p) =>
      match runFolds folds p with
      | (.error err, p) => (.error err, p)
      | (.ok results, p) => (.ok (result :: results), p)

def runWalkForwardBacktest (candles : List CandleRow) (nFolds minTrainCandles : ℤ) :
    Call ρ WalkForwardResult := fun p =>
  match walkForwardSplits candles nFolds minTrainCandles with
  | .error err => (.error err, p)
  | .ok folds =>
    match e.runFolds config provider resetFn folds p with
    | (.error err, p) => (.error err, p)
    | (.ok results, p) => (.ok ⟨results, results.length, minTrainCandles⟩, p)

/-- The windows of a split, each of them alone with a provider that has seen nothing. -/
def splitAlone (start : ρ) (product : ℕ → Amount → ℤ) (candles : List CandleRow)
    (trainRatio : Amount) : Except PyError SplitBacktestResult := do
  let split ← splitDataset product candles trainRatio
  let inSample ← e.backtest config split.train provider start
  let outOfSample ← e.backtest config split.test provider start
  return ⟨inSample, outOfSample, trainRatio⟩

def foldAlone (start : ρ) (fold : WalkForwardFold) : Except PyError WalkForwardFoldResult := do
  let trainResult ← e.backtest config fold.train provider start
  let testResult ← e.backtest config fold.test provider start
  return ⟨fold.foldIndex, trainResult, testResult⟩

def walkForwardAlone (start : ρ) (candles : List CandleRow) (nFolds minTrainCandles : ℤ) :
    Except PyError WalkForwardResult := do
  let folds ← walkForwardSplits candles nFolds minTrainCandles
  let results ← folds.mapM (e.foldAlone config provider start)
  return ⟨results, results.length, minTrainCandles⟩

variable {reset : Call ρ Unit} {start : ρ}

/-- A fold that finds the provider fresh, or resets it, is run as if it were alone. -/
theorem runFold_alone (hreset : ∀ p, reset p = (.ok (), start)) (fold : WalkForwardFold) (p : ρ)
    (hp : 0 < fold.foldIndex ∨ p = start) :
    (e.runFold config provider (some reset) fold p).1 = e.foldAlone config provider start fold := by
  have hstart : (if 0 < fold.foldIndex then callReset (some reset) p else (.ok (), p)) =
      (.ok (), start) := by
    split
    · exact hreset p
    · rename_i hnot
      rw [hp.resolve_left hnot]
  unfold runFold foldAlone
  rw [hstart]
  simp only [bind, Except.bind, pure, Except.pure, backtestFrom]
  cases e.backtest config fold.train provider start with
  | error err => rfl
  | ok trainResult =>
    simp only [callReset, hreset]
    cases e.backtest config fold.test provider start with
    | error err => rfl
    | ok testResult => rfl

theorem runFolds_alone (hreset : ∀ p, reset p = (.ok (), start)) (folds : List WalkForwardFold)
    (p : ρ) (hp : (∀ fold ∈ folds, 0 < fold.foldIndex) ∨
      p = start ∧ ∀ fold ∈ folds.tail, 0 < fold.foldIndex) :
    (e.runFolds config provider (some reset) folds p).1 =
      folds.mapM (e.foldAlone config provider start) := by
  induction folds generalizing p with
  | nil => rfl
  | cons fold folds ih =>
    have hfold : 0 < fold.foldIndex ∨ p = start :=
      hp.imp (fun h => h fold List.mem_cons_self) fun h => h.1
    have hrest : ∀ fold ∈ folds, 0 < fold.foldIndex :=
      hp.elim (fun h fold hm => h fold (List.mem_cons_of_mem _ hm)) fun h => h.2
    have halone := e.runFold_alone config provider hreset fold p hfold
    rw [List.mapM_cons, ← halone, runFolds]
    rcases e.runFold config provider (some reset) fold p with ⟨err | result, p'⟩
    · rfl
    · have ih := ih p' (.inl hrest)
      dsimp only [bind, Except.bind]
      rw [← ih]
      rcases e.runFolds config provider (some reset) folds p' with ⟨err | results, p''⟩
      · rfl
      · rfl

/-- Only the first fold does without a reset of its own. -/
theorem splits_foldIndex (h : walkForwardSplits candles nFolds minTrainCandles = .ok folds) :
    ∀ fold ∈ folds.tail, 0 < fold.foldIndex := by
  unfold walkForwardSplits at h
  split at h
  · cases h
  split at h
  · cases h
  split at h
  · cases h
  cases h
  intro fold hm
  rw [← List.map_tail] at hm
  obtain ⟨i, hi, rfl⟩ := List.mem_map.mp hm
  rw [List.tail_range, List.mem_range'] at hi
  obtain ⟨j, -, rfl⟩ := hi
  exact Nat.lt_add_right _ Nat.zero_lt_one

/-- With a reset that restores the provider, no window depends on those before it. -/
theorem windows_isolated (e : BacktestingEngine) (config : BacktestConfig)
    (provider : SignalProvider ρ) (hreset : ∀ p, reset p = (.ok (), start)) :
    (∀ product candles trainRatio,
      (e.runSplitBacktest config provider (some reset) product candles trainRatio start).1 =
        e.splitAlone config provider start product candles trainRatio) ∧
    ∀ candles nFolds minTrainCandles,
      (e.runWalkForwardBacktest config provider (some reset) candles nFolds minTrainCandles
        start).1 = e.walkForwardAlone config provider start candles nFolds minTrainCandles := by
  constructor
  · intro product candles trainRatio
    unfold runSplitBacktest splitAlone
    cases splitDataset product candles trainRatio with
    | error err => rfl
    | ok split =>
      simp only [bind, Except.bind, pure, Except.pure, backtestFrom]
      cases e.backtest config split.train provider start with
      | error err => rfl
      | ok inSample =>
        simp only [callReset, hreset]
        cases e.backtest config split.test provider start with
        | error err => rfl
        | ok outOfSample => rfl
  · intro candles nFolds minTrainCandles
    unfold runWalkForwardBacktest walkForwardAlone
    rcases hsplits : walkForwardSplits candles nFolds minTrainCandles with err | folds
    · rfl
    · have halone := e.runFolds_alone config provider hreset folds start
        (.inr ⟨rfl, splits_foldIndex hsplits⟩)
      dsimp only [bind, Except.bind, pure, Except.pure]
      rw [← halone]
      rcases e.runFolds config provider (some reset) folds start with ⟨err | results, p⟩
      · rfl
      · rfl

end BacktestingEngine

/-- A provider that asks for a long once in its life, and the reset that starts it anew. -/
def askOnce : SignalProvider ℕ := fun _ _ calls =>
  (.ok (if calls = 0 then longSignal else waitSignal), calls + 1)

def startAnew : Call ℕ Unit := fun _ => (.ok (), 0)

/-- It asks again in every window. -/
theorem askOnce_isolated :
    (standardEngine.runWalkForwardBacktest unitConfig askOnce (some startAnew) hourlyCandles 3 1
      0).1 = standardEngine.walkForwardAlone unitConfig askOnce 0 hourlyCandles 3 1 :=
  (BacktestingEngine.windows_isolated standardEngine unitConfig askOnce
    fun _ => rfl).2 hourlyCandles 3 1

end FuturesBot
