import FuturesBot.Lib.Loops
import FuturesBot.Market.Validators
import FuturesBot.Signals.Regime
import FuturesBot.Signals.Volatility

namespace FuturesBot.MarketData
open Lib

/-- What each row of an analysis refers to. -/
structure AnalysisRow where
  id : String
  botRunId : String
  marketSnapshotId : String
  symbol : Symbol
  timestamp : DateTime

structure RawSignals where
  signalConflictScore : Option Amount
  signalConfidence : Option Amount
  timeframesUsed : List String
  version : String
  rawFeatureRefs : Option RawFeatureRefs

structure QuantSignalRow extends AnalysisRow where
  momentumScore : Option Amount
  meanReversionScore : Option Amount
  breakoutScore : Option Amount
  liquiditySweepScore : Option Amount
  orderFlowScore : Option Amount
  fundingSignal : Option Amount
  openInterestSignal : Option Amount
  compositeScore : Option Amount
  rawSignals : RawSignals

structure RegimeDetails where
  secondaryRegime : Option PrimaryRegime
  volatilityState : VolatilityState
  liquidityState : LiquidityState
  fundingState : FundingState
  openInterestState : OpenInterestState
  trendAlignment : TrendAlignment
  notes : List RegimeNote
  version : String

structure MarketRegimeRow extends AnalysisRow where
  regime : PrimaryRegime
  confidence : Amount
  regimeDetails : RegimeDetails

structure VolatilityDetails where
  atr : Timeframe → Amount
  realizedVol : Amount
  volatilityRegime : VolatilityRegime
  version : String
  rangeVols : Timeframe → Amount

structure VolatilityRow extends AnalysisRow where
  atr : Amount
  atrPercent : Amount
  volatilityScore : Amount
  leverageCap : ℤ
  liquidationRiskScore : Amount
  details : VolatilityDetails

def AnalysisKey.row (k : AnalysisKey) (id botRunId : String) : AnalysisRow where
  id := id
  botRunId := botRunId
  marketSnapshotId := k.snapshotId
  symbol := k.symbol
  timestamp := k.timestampUtc

def QuantSignalsPackage.toDbKwargs (p : QuantSignalsPackage) (botRunId : String) :
    QuantSignalRow where
  toAnalysisRow := p.toAnalysisKey.row p.signalId botRunId
  momentumScore := p.signals.momentumSignal
  meanReversionScore := p.signals.meanReversionSignal
  breakoutScore := p.signals.breakoutSignal
  liquiditySweepScore := p.signals.liquiditySweepSignal
  orderFlowScore := p.signals.orderFlowImbalanceSignal
  fundingSignal := p.signals.fundingSignal
  openInterestSignal := p.signals.openInterestSignal
  compositeScore := p.signals.signalStrengthScore
  rawSignals :=
    { signalConflictScore := p.signals.signalConflictScore
      signalConfidence := p.signalConfidence
      timeframesUsed := p.timeframesUsed
      version := signalVersion
      rawFeatureRefs := p.rawFeatureRefs }

def MarketRegimeAssessment.toDbKwargs (r : MarketRegimeAssessment) (botRunId : String) :
    MarketRegimeRow where
  toAnalysisRow := r.toAnalysisKey.row r.regimeId botRunId
  regime := r.primaryRegime
  confidence := r.regimeConfidence
  regimeDetails :=
    { secondaryRegime := r.secondaryRegime
      volatilityState := r.volatilityState
      liquidityState := r.liquidityState
      fundingState := r.fundingState
      openInterestState := r.openInterestState
      trendAlignment := r.trendAlignment
      notes := r.notes
      version := regimeVersion }

def VolatilityAssessmentPackage.toDbKwargs (p : VolatilityAssessmentPackage) (botRunId : String) :
    VolatilityRow where
  toAnalysisRow := p.toAnalysisKey.row p.assessmentId botRunId
  atr := p.atr .tf1h
  atrPercent := p.atrPercent
  volatilityScore := p.volatilityScore
  leverageCap := p.leverageCap
  liquidationRiskScore := p.liquidationRiskScore
  details :=
    { atr := p.atr
      realizedVol := p.realizedVol
      volatilityRegime := p.volatilityRegime
      version := volatilityVersion
      rangeVols := p.rangeVols }

/-- The tables that market data goes to. -/
structure MarketTables where
  marketSnapshots : List (MarketSnapshotRow Decimal DateTime Amount) := []
  quantSignals : List QuantSignalRow := []
  marketRegimes : List MarketRegimeRow := []
  volatilityAssessments : List VolatilityRow := []

/-- A row for one of the tables. -/
inductive MarketRow
  | marketSnapshot (row : MarketSnapshotRow Decimal DateTime Amount)
  | quantSignal (row : QuantSignalRow)
  | marketRegime (row : MarketRegimeRow)
  | volatilityAssessment (row : VolatilityRow)

def MarketTables.insert (db : MarketTables) : MarketRow → MarketTables
  | .marketSnapshot row => { db with marketSnapshots := db.marketSnapshots ++ [row] }
  | .quantSignal row => { db with quantSignals := db.quantSignals ++ [row] }
  | .marketRegime row => { db with marketRegimes := db.marketRegimes ++ [row] }
  | .volatilityAssessment row =>
    { db with volatilityAssessments := db.volatilityAssessments ++ [row] }

/-- Whether the database takes a row, by what the tables hold. It refuses an identifier that is
there already, and what its columns cannot hold. -/
abbrev Flushes := MarketTables → MarketRow → Bool

/-- The open transaction and the tables as it sees them. Once a flush has failed, nothing more of
it goes through. -/
structure MarketSession where
  tables : MarketTables
  failed : Bool

/-- `add` and `flush`. -/
def BaseRepository.save (flushes : Flushes) (row : MarketRow) : Call MarketSession Unit := fun x =>
  if !x.failed && flushes x.tables row then (.ok (), ⟨x.tables.insert row, false⟩)
  else (.error .sqlAlchemyError, { x with failed := true })

/-- The identifiers that the packages of a snapshot draw. -/
structure AnalysisIds where
  signalId : Uuid
  regimeId : Uuid
  assessmentId : Uuid

namespace MarketAnalysisService

/-- The packages are computed and stored one after the other; the first that fails ends it, and
what has been stored before stays. -/
def analyse (M : FloatMath) (flushes : Flushes) (botRunId : String) (ids : AnalysisIds)
    (s : MarketSnapshot Amount) : Call MarketSession Unit := fun x =>
  match computeQuantSignals M ids.signalId s with
  | .error e => (.error e, x)
  | .ok quant =>
    match BaseRepository.save flushes (.quantSignal (quant.toDbKwargs botRunId)) x with
    | (.error e, x) => (.error e, x)
    | (.ok (), x) =>
      match MarketRegimeEngine.assess M ids.regimeId s with
      | .error e => (.error e, x)
      | .ok regime =>
        match BaseRepository.save flushes (.marketRegime (regime.toDbKwargs botRunId)) x with
        | (.error e, x) => (.error e, x)
        | (.ok (), x) =>
          match computeVolatilityAssessment M ids.assessmentId s with
          | .error e => (.error e, x)
          | .ok volatility =>
            BaseRepository.save flushes (.volatilityAssessment (volatility.toDbKwargs botRunId)) x

/-- A failure is logged and goes no further. -/
def onSnapshot (M : FloatMath) (flushes : Flushes) (botRunId : String) (ids : AnalysisIds)
    (s : MarketSnapshot Amount) (x : MarketSession) : MarketSession :=
  (analyse M flushes botRunId ids s x).2

end MarketAnalysisService

/-- Why a snapshot is not processed. -/
inductive ProcessError
  | rejected (e : SnapshotRejectedError)
  | raised (e : PyError)

namespace MarketDataEngine

def processSnapshot (flushes : Flushes) (botRunId : String) (now : DateTime.Moment)
    (s : MarketSnapshot Amount) (x : MarketSession) : Except ProcessError Unit × MarketSession :=
  match validateSnapshot s now with
  | .error e => (.error (.rejected e), x)
  | .ok validated =>
    match BaseRepository.save flushes (.marketSnapshot (validated.toDbKwargs botRunId)) x with
    | (.error e, x) => (.error (.raised e), x)
    | (.ok (), x) => (.ok (), x)

end MarketDataEngine

/-- What the cycle has got for a symbol: a snapshot or an exception, and the moment and the
identifiers with which it goes on. -/
structure Fetched where
  result : Except PyError (MarketSnapshot Amount)
  now : DateTime.Moment
  ids : AnalysisIds

/-- A cycle of the feed: what it fetches, and what the database makes of it. -/
structure MarketTick where
  fetched : List Fetched
  flushes : Flushes
  commits : Bool

namespace MarketDataCycleService

/-- One symbol of `tick_all`: nothing that goes wrong with it stops the others. -/
def processFetched (M : FloatMath) (flushes : Flushes) (botRunId : String) (x : MarketSession)
    (f : Fetched) : MarketSession :=
  match f.result with
  | .error _ => x
  | .ok s =>
    match MarketDataEngine.processSnapshot flushes botRunId f.now s x with
    | (.error _, x) => x
    | (.ok (), x) => MarketAnalysisService.onSnapshot M flushes botRunId f.ids s x

/-- All symbols, and a commit. A transaction in which a flush has failed cannot be committed. -/
def tickAll (M : FloatMath) (botRunId : String) (t : MarketTick) : Call MarketTables Unit :=
  fun db =>
    let x := t.fetched.foldl (processFetched M t.flushes botRunId) ⟨db, false⟩
    if !x.failed && t.commits then (.ok (), x.tables) else (.error .sqlAlchemyError, db)

/-- The cycles of a worker. An exception of one of them ends it, and what has not been committed
is lost. -/
def run (M : FloatMath) (botRunId : String) (ticks : List MarketTick) :
    Except PyError Unit × MarketTables :=
  loop (fun _ => tickAll M botRunId) 0 ticks {}

end MarketDataCycleService

/-- What a snapshot must be for its signals and its regime to be known. -/
def MarketSnapshot.Analysable (M : FloatMath) (s : MarketSnapshot Amount) : Prop :=
  s.candles.Computable M ∧ s.Identified

/-- What a snapshot must be for its volatility to be known as well. -/
def MarketSnapshot.FullyAnalysable (M : FloatMath) (s : MarketSnapshot Amount) : Prop :=
  s.Analysable M ∧ 0 ≤ realizedVol M s.candles

instance MarketSnapshot.decidableAnalysable (M : FloatMath) (s : MarketSnapshot Amount) :
    Decidable (s.Analysable M) := inferInstanceAs (Decidable (_ ∧ _))

instance MarketSnapshot.decidableFullyAnalysable (M : FloatMath) (s : MarketSnapshot Amount) :
    Decidable (s.FullyAnalysable M) := inferInstanceAs (Decidable (_ ∧ _))

/-- The snapshot of a symbol, if it has been fetched and let through, with the identifiers. -/
def Fetched.accepted (f : Fetched) : Option (AnalysisIds × MarketSnapshot Amount) :=
  match f.result with
  | .error _ => none
  | .ok s => if ageOf s f.now ≤ expiredAgeS * 1000000 ∧ s.Coherent then some (f.ids, s) else none

/-- The tables hold what the accepted snapshots have brought them. -/
structure MarketTables.Follow (M : FloatMath) (botRunId : String)
    (accepted : List (AnalysisIds × MarketSnapshot Amount)) (db : MarketTables) : Prop where
  snapshots : db.marketSnapshots = accepted.map fun a => a.2.toDbKwargs botRunId
  quantSignals : db.quantSignals.map QuantSignalRow.toAnalysisRow =
    (accepted.filter fun a => a.2.Analysable M).map fun a =>
      a.2.key.row a.1.signalId.text botRunId
  regimes : db.marketRegimes.map MarketRegimeRow.toAnalysisRow =
    (accepted.filter fun a => a.2.Analysable M).map fun a =>
      a.2.key.row a.1.regimeId.text botRunId
  volatility : db.volatilityAssessments.map VolatilityRow.toAnalysisRow =
    (accepted.filter fun a => a.2.FullyAnalysable M).map fun a =>
      a.2.key.row a.1.assessmentId.text botRunId

/-- The rows of the packages of a snapshot, as far as these can be computed. -/
def analysisRows (M : FloatMath) (botRunId : String) (ids : AnalysisIds)
    (s : MarketSnapshot Amount) : List MarketRow :=
  match computeQuantSignals M ids.signalId s with
  | .error _ => []
  | .ok quant => .quantSignal (quant.toDbKwargs botRunId) ::
    match MarketRegimeEngine.assess M ids.regimeId s with
    | .error _ => []
    | .ok regime => .marketRegime (regime.toDbKwargs botRunId) ::
      match computeVolatilityAssessment M ids.assessmentId s with
      | .error _ => []
      | .ok volatility => [.volatilityAssessment (volatility.toDbKwargs botRunId)]

/-- The rows that a symbol brings. -/
def Fetched.rows (M : FloatMath) (botRunId : String) (f : Fetched) : List MarketRow :=
  match f.accepted with
  | none => []
  | some (ids, s) => .marketSnapshot (s.toDbKwargs botRunId) :: analysisRows M botRunId ids s

def MarketTick.rows (M : FloatMath) (botRunId : String) (t : MarketTick) : List MarketRow :=
  t.fetched.flatMap (Fetched.rows M botRunId)

/-- The database takes all rows, one after the other. -/
def Taken (flushes : Flushes) : MarketTables → List MarketRow → Prop
  | _, [] => True
  | db, row :: rows => flushes db row ∧ Taken flushes (db.insert row) rows

/-- The database takes all rows of the cycle and commits them. -/
def MarketTick.Stored (M : FloatMath) (botRunId : String) (t : MarketTick) (db : MarketTables) :
    Prop :=
  Taken t.flushes db (t.rows M botRunId) ∧ t.commits

section
variable {flushes : Flushes}

end

namespace MarketDataCycleService

end MarketDataCycleService

section
variable {M : FloatMath} {s : MarketSnapshot Amount}

theorem analysisRows_of_not_analysable (botRunId : String) (ids : AnalysisIds)
    (h : ¬s.Analysable M) : analysisRows M botRunId ids s = [] := by
  have herror : ∃ e, computeQuantSignals M ids.signalId s = .error e := by
    by_cases hcomputable : s.candles.Computable M
    · exact ⟨_, computeQuantSignals_refused _ hcomputable fun hid => h ⟨hcomputable, hid⟩⟩
    · exact ⟨_, computeQuantSignals_error _ hcomputable⟩
  obtain ⟨e, he⟩ := herror
  rw [analysisRows, he]

/-- A snapshot whose signals are known gets its regime, and its volatility unless that is
refused. -/
theorem analysisRows_of_analysable (botRunId : String) (ids : AnalysisIds) (h : s.Analysable M) :
    ∃ quant regime, quant.toAnalysisRow = s.key.row ids.signalId.text botRunId ∧
      regime.toAnalysisRow = s.key.row ids.regimeId.text botRunId ∧
      ((¬s.FullyAnalysable M ∧
          analysisRows M botRunId ids s = [.quantSignal quant, .marketRegime regime]) ∨
        (s.FullyAnalysable M ∧ ∃ volatility,
          volatility.toAnalysisRow = s.key.row ids.assessmentId.text botRunId ∧
          analysisRows M botRunId ids s =
            [.quantSignal quant, .marketRegime regime, .volatilityAssessment volatility])) := by
  obtain ⟨p, hp, ⟨hkey, hid⟩, -⟩ := computeQuantSignals_of_computable ids.signalId h.1 h.2
  obtain ⟨r, hr⟩ := (MarketRegimeEngine.assess_ok_iff M ids.regimeId s).mpr h.2
  obtain ⟨⟨hrkey, hrid⟩, -⟩ := MarketRegimeEngine.assess_eq hr
  refine ⟨p.toDbKwargs botRunId, r.toDbKwargs botRunId, ?_, ?_, ?_⟩
  · rw [QuantSignalsPackage.toDbKwargs, hkey, hid]
  · rw [MarketRegimeAssessment.toDbKwargs, hrkey, hrid]
  · rw [analysisRows, hp]
    dsimp only
    rw [hr]
    dsimp only
    by_cases hvol : 0 ≤ realizedVol M s.candles
    · obtain ⟨v, hv⟩ :=
        (computeVolatilityAssessment_ok_iff M ids.assessmentId s).mpr ⟨h.2, hvol⟩
      refine .inr ⟨⟨h, hvol⟩, v.toDbKwargs botRunId, ?_, ?_⟩
      · rw [VolatilityAssessmentPackage.toDbKwargs, computeVolatilityAssessment_eq hv]
        rfl
      · rw [hv]
    · refine .inl ⟨fun hfull => hvol hfull.2, ?_⟩
      have hno := mt (computeVolatilityAssessment_ok_iff M ids.assessmentId s).mp
        fun hok => hvol hok.2
      cases hv : computeVolatilityAssessment M ids.assessmentId s with
      | error e => rfl
      | ok v => exact absurd ⟨v, hv⟩ hno

end

namespace MarketTables.Follow

variable {M : FloatMath} {accepted : List (AnalysisIds × MarketSnapshot Amount)}
  {db : MarketTables}

theorem step (h : db.Follow M botRunId accepted) (f : Fetched) :
    ((f.rows M botRunId).foldl insert db).Follow M botRunId (accepted ++ f.accepted.toList) := by
  unfold Fetched.rows
  cases f.accepted with
  | none =>
    rw [Option.toList_none, List.append_nil]
    exact h
  | some a =>
    obtain ⟨ids, s⟩ := a
    have hsnapshots : db.marketSnapshots ++ [s.toDbKwargs botRunId] =
        (accepted ++ [(ids, s)]).map fun a => a.2.toDbKwargs botRunId := by
      rw [h.snapshots, List.map_append]
      rfl
    dsimp only
    rw [Option.toList_some]
    by_cases hs : s.Analysable M
    · obtain ⟨quant, regime, hquant, hregime, hcases⟩ :=
        analysisRows_of_analysable botRunId ids hs
      rcases hcases with ⟨hfull, hrows⟩ | ⟨hfull, volatility, hvolatility, hrows⟩
      · rw [hrows]
        constructor
        · exact hsnapshots
        · simp [insert, List.filter_append, hs, h.quantSignals, hquant]
        · simp [insert, List.filter_append, hs, h.regimes, hregime]
        · simp [insert, List.filter_append, hfull, h.volatility]
      · rw [hrows]
        constructor
        · exact hsnapshots
        · simp [insert, List.filter_append, hs, h.quantSignals, hquant]
        · simp [insert, List.filter_append, hs, h.regimes, hregime]
        · simp [insert, List.filter_append, hfull, h.volatility, hvolatility]
    · have hfull : ¬s.FullyAnalysable M := fun hfull => hs hfull.1
      rw [analysisRows_of_not_analysable botRunId ids hs]
      constructor
      · exact hsnapshots
      · simp [insert, List.filter_append, hs, h.quantSignals]
      · simp [insert, List.filter_append, hs, h.regimes]
      · simp [insert, List.filter_append, hfull, h.volatility]

theorem tick (h : db.Follow M botRunId accepted) (fetched : List Fetched) :
    ((fetched.flatMap (Fetched.rows M botRunId)).foldl insert db).Follow M botRunId
      (accepted ++ fetched.filterMap Fetched.accepted) := by
  induction fetched generalizing accepted db with
  | nil => simpa using h
  | cons f fetched ih =>
    have hrest := ih (h.step f)
    rw [List.flatMap_cons, List.foldl_append]
    cases hf : f.accepted with
    | none => simpa [hf] using hrest
    | some a => simpa [hf] using hrest

end MarketTables.Follow

end FuturesBot.MarketData
