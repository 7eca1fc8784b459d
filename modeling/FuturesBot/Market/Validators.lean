import FuturesBot.Market.Snapshot

namespace FuturesBot.MarketData
open Lib

def staleAgeS : ℕ := 10

def expiredAgeS : ℕ := 30

def minCandlesPerTf : ℤ := 3

def maxLastPriceVs5mClosePct : ℚ := 2

/-- What is wrong with a snapshot, with the numbers that its text shows. -/
inductive CoherenceIssue
  | gap (timeframe : String) (nCandles : ℤ)
  | closeInvalid (close : Decimal)
  | deviation (lastPrice : Decimal) (deviationPct : ℚ) (close5m : Decimal)
  deriving DecidableEq

structure SnapshotRejectedError where
  snapshotId : String
  expired : Bool
  issues : Option (List CoherenceIssue)

/-- Microseconds from the time of a snapshot to now. A time to come has a negative age. -/
def ageOf (s : MarketSnapshot φ) (now : DateTime.Moment) : ℤ :=
  now.microseconds - s.timestampUtc.moment.microseconds

def evaluateFreshness (s : MarketSnapshot φ) (now : DateTime.Moment) : DataFreshnessStatus :=
  if expiredAgeS * 1000000 < ageOf s now then .expired
  else if staleAgeS * 1000000 < ageOf s now then .stale
  else .fresh

/-- The timeframes that are put together of several candles. -/
def aggregated (cs : Candles) : List (String × CandleData) :=
  [("15m", cs.tf15m), ("1h", cs.tf1h), ("4h", cs.tf4h)]

def checkGaps (cs : Candles) : List CoherenceIssue :=
  (aggregated cs).filterMap fun entry =>
    if entry.2.nCandles < minCandlesPerTf then some (.gap entry.1 entry.2.nCandles) else none

/-- What makes the price invalid, and what only gives a warning. -/
def checkPriceCoherence (s : MarketSnapshot φ) : List CoherenceIssue × List CoherenceIssue :=
  let close := s.candles.tf5m.close
  if close.value ≤ 0 then ([.closeInvalid close], [])
  else
    let deviation := Decimal.roundContext (Decimal.roundContext
      (|Decimal.roundContext (s.lastPrice.value - close.value)| / close.value) * 100)
    if maxLastPriceVs5mClosePct < deviation then ([], [.deviation s.lastPrice deviation close])
    else ([], [])

def evaluateCoherence (s : MarketSnapshot φ) : CoherenceStatus × List CoherenceIssue :=
  let gaps := checkGaps s.candles
  let (invalid, warnings) := checkPriceCoherence s
  let all := gaps ++ invalid ++ warnings
  if all = [] then (.ok, [])
  else if gaps ++ invalid ≠ [] then (.invalid, all)
  else (.warning, all)

/-- The gate. The statuses that a snapshot carries itself are not read. -/
def validateSnapshot (s : MarketSnapshot φ) (now : DateTime.Moment) :
    Except SnapshotRejectedError (MarketSnapshot φ) :=
  let expired := decide (evaluateFreshness s now = .expired)
  let (coherence, issues) := evaluateCoherence s
  if expired ∨ coherence = .invalid then
    .error ⟨s.snapshotId, expired, if coherence = .invalid then some issues else none⟩
  else .ok s

/-- What a snapshot needs of its candles to be let through at any time at all. -/
def MarketSnapshot.Coherent (s : MarketSnapshot φ) : Prop :=
  (∀ entry ∈ aggregated s.candles, minCandlesPerTf ≤ entry.2.nCandles) ∧
  0 < s.candles.tf5m.close.value

instance MarketSnapshot.decidableCoherent (s : MarketSnapshot φ) : Decidable s.Coherent :=
  inferInstanceAs (Decidable (_ ∧ _))

end FuturesBot.MarketData
