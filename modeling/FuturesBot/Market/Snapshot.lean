import FuturesBot.Core.Config
import FuturesBot.Core.Constants
import FuturesBot.Core.DateTimes
import FuturesBot.Core.Decimals

namespace FuturesBot
open Lib

/-- What a numeric column gives back for a number: eight digits after the point. -/
def Decimal.column (d : Decimal) : Decimal :=
  let n := roundHalfAway (d.value * 10 ^ quantPlaces)
  ⟨n < 0, n.natAbs, -quantPlaces⟩

theorem Decimal.value_column (d : Decimal) : d.column.value = numericColumn d.value := by
  have hsign : ∀ n : ℤ, ((if decide (n < 0) then -(n.natAbs : ℚ) else n.natAbs) : ℚ) = n := by
    intro n
    by_cases hn : n < 0
    · rw [decide_eq_true hn, if_pos rfl, Nat.cast_natAbs, abs_of_neg hn]
      simp
    · rw [decide_eq_false hn, if_neg Bool.false_ne_true, Nat.cast_natAbs,
        abs_of_nonneg (not_lt.mp hn)]
  rw [column, value, hsign, zpow_neg, zpow_natCast, ← div_eq_mul_inv]
  rfl

namespace MarketData

inductive Exchange
  | bingx | binance | paper
  deriving DecidableEq, Repr

inductive DataFreshnessStatus
  | fresh | stale | expired
  deriving DecidableEq, Repr

inductive CoherenceStatus
  | ok | warning | invalid
  deriving DecidableEq, Repr

/-- The only market there is. -/
inductive Market
  | futures
  deriving DecidableEq, Repr

/-- An enumeration whose members have texts as their values. -/
class StrEnum (ε : Type) [DecidableEq ε] where
  entries : List (ε × String)
  mem_entries : ∀ e, ∃ text, (e, text) ∈ entries
  nodup : (entries.map Prod.snd).Nodup

namespace StrEnum

variable {ε : Type} [DecidableEq ε] [StrEnum ε]

def value (e : ε) : String := (entries.lookup e).getD ""

/-- The member that a text is the value of. -/
def ofValue (ε : Type) [DecidableEq ε] [StrEnum ε] (text : String) : Option ε :=
  ((entries : List (ε × String)).find? (·.2 = text)).map Prod.fst

end StrEnum

instance : StrEnum Exchange where
  entries := [(.bingx, "BINGX"), (.binance, "BINANCE"), (.paper, "PAPER")]
  mem_entries e := by cases e <;> simp
  nodup := by decide +kernel

instance : StrEnum Environment where
  entries := [(.paper, "PAPER"), (.testnet, "TESTNET"), (.live, "LIVE")]
  mem_entries e := by cases e <;> simp
  nodup := by decide +kernel

instance : StrEnum DataFreshnessStatus where
  entries := [(.fresh, "FRESH"), (.stale, "STALE"), (.expired, "EXPIRED")]
  mem_entries e := by cases e <;> simp
  nodup := by decide +kernel

instance : StrEnum CoherenceStatus where
  entries := [(.ok, "OK"), (.warning, "WARNING"), (.invalid, "INVALID")]
  mem_entries e := by cases e <;> simp
  nodup := by decide +kernel

theorem StrEnum.mem_value [DecidableEq ε] [StrEnum ε] (e : ε) : (e, value e) ∈ entries := by
  rcases hfound : (entries : List (ε × String)).lookup e with _ | text
  · obtain ⟨text, hm⟩ := mem_entries e
    have habsent := List.lookup_eq_none_iff.mp hfound _ hm
    simp at habsent
  · obtain ⟨before, after, hsplit, -⟩ := List.lookup_eq_some_iff.mp hfound
    rw [value, hfound, hsplit, Option.getD_some]
    simp

theorem StrEnum.ofValue_value [DecidableEq ε] [StrEnum ε] (e : ε) :
    ofValue ε (value e) = some e := by
  unfold ofValue
  rcases hfound : entries.find? (fun entry : ε × String => decide (entry.2 = value e)) with _ | entry
  · have hnone := List.find?_eq_none.mp hfound _ (mem_value e)
    simp at hnone
  · have hvalue : entry.2 = value e := by simpa using List.find?_some hfound
    have hsame := List.inj_on_of_nodup_map nodup (List.mem_of_find?_eq_some hfound) (mem_value e)
      hvalue
    rw [hsame]
    rfl

/-- A value of a JSON column. Floating numbers are only passed on. -/
inductive Json (φ : Type)
  | null
  | str (text : String)
  | int (n : ℤ)
  | float (x : φ)
  | object (fields : List (String × Json φ))

/-- A candle over numbers of any kind. -/
structure CandleFields (δ : Type) where
  openPrice : δ
  high : δ
  low : δ
  close : δ
  volume : δ
  nCandles : ℤ

def CandleFields.map (g : δ → δ') (c : CandleFields δ) : CandleFields δ' where
  openPrice := g c.openPrice
  high := g c.high
  low := g c.low
  close := g c.close
  volume := g c.volume
  nCandles := c.nCandles

def CandleFields.Valid (c : CandleFields ℚ) : Prop :=
  1 ≤ c.nCandles ∧ (c.low ≤ c.openPrice ∧ c.openPrice ≤ c.high) ∧
  (c.low ≤ c.close ∧ c.close ≤ c.high) ∧ 0 ≤ c.volume

instance (c : CandleFields ℚ) : Decidable c.Valid := inferInstanceAs (Decidable (_ ∧ _))

structure CandleData extends CandleFields Decimal where
  valid : (toCandleFields.map Decimal.value).Valid

def CandleData.build (c : CandleFields Decimal) : Except PyError CandleData :=
  if h : (c.map Decimal.value).Valid then .ok ⟨c, h⟩ else .error (.validationError "CandleData")

/-- The candle of each timeframe, with the ones before it if they are known. -/
structure Candles where
  tf5m : CandleData
  tf15m : CandleData
  tf1h : CandleData
  tf4h : CandleData
  history5m : List CandleData := []
  history15m : List CandleData := []
  history1h : List CandleData := []
  history4h : List CandleData := []

/-- A snapshot over numbers and times of any kind. -/
structure MarketSnapshotFields (δ τ φ : Type) where
  snapshotId : String
  timestampUtc : τ
  exchange : Exchange
  environment : Environment
  symbol : Symbol
  market : Market := .futures
  lastPrice : δ
  bid : δ
  ask : δ
  spreadAbsolute : δ
  spreadPercent : δ
  candles : Candles
  volume : δ
  volatility : Option φ
  fundingRate : Option φ
  openInterest : Option δ
  accountBalanceUsdt : δ
  openPositionsCount : ℤ
  activeOrdersCount : ℤ
  latencyMs : ℤ
  exchangeServerTime : τ
  localTime : τ
  clockSkewMs : ℤ
  dataFreshnessStatus : DataFreshnessStatus
  coherenceStatus : CoherenceStatus

variable {φ : Type}

def MarketSnapshotFields.map (g : δ → δ') (h : τ → τ') (f : MarketSnapshotFields δ τ φ) :
    MarketSnapshotFields δ' τ' φ :=
  { f with
    timestampUtc := h f.timestampUtc
    lastPrice := g f.lastPrice
    bid := g f.bid
    ask := g f.ask
    spreadAbsolute := g f.spreadAbsolute
    spreadPercent := g f.spreadPercent
    volume := g f.volume
    openInterest := f.openInterest.map g
    accountBalanceUsdt := g f.accountBalanceUsdt
    exchangeServerTime := h f.exchangeServerTime
    localTime := h f.localTime }

/-- What `==` compares of numbers and times. -/
abbrev MarketSnapshotFields.values (f : MarketSnapshotFields Decimal DateTime φ) :
    MarketSnapshotFields ℚ DateTime.Moment φ :=
  f.map Decimal.value DateTime.moment

section Validators
variable (f : MarketSnapshotFields ℚ DateTime.Moment φ)

def MarketSnapshotFields.InRange : Prop :=
  0 < f.lastPrice ∧ 0 < f.bid ∧ 0 < f.ask ∧ 0 ≤ f.spreadAbsolute ∧ 0 ≤ f.spreadPercent ∧
  0 ≤ f.volume ∧ 0 ≤ f.accountBalanceUsdt ∧ 0 ≤ f.openPositionsCount ∧ 0 ≤ f.activeOrdersCount ∧
  (0 ≤ f.latencyMs ∧ f.latencyMs ≤ 10000) ∧ |f.clockSkewMs| ≤ 5000

/-- The prices fit together. Each difference and quotient is rounded to the context. -/
def MarketSnapshotFields.PricesCoherent : Prop :=
  let expectedSpread := Decimal.roundContext (f.ask - f.bid)
  let expectedSpreadPct :=
    Decimal.roundContext (Decimal.roundContext (f.spreadAbsolute / f.bid) * 100)
  f.bid < f.ask ∧ |Decimal.roundContext (f.spreadAbsolute - expectedSpread)| ≤ 1 / 10000 ∧
  |Decimal.roundContext (f.spreadPercent - expectedSpreadPct)| ≤ 1 / 100 ∧ f.spreadPercent ≤ 5 ∧
  f.bid ≤ f.lastPrice ∧ f.lastPrice ≤ f.ask

def MarketSnapshotFields.Valid : Prop :=
  f.InRange ∧ f.symbol ∈ allowedSymbols ∧
  (f.timestampUtc.aware ∧ f.exchangeServerTime.aware ∧ f.localTime.aware) ∧ f.PricesCoherent

instance : Decidable f.InRange := inferInstanceAs (Decidable (_ ∧ _))

instance : Decidable f.PricesCoherent := inferInstanceAs (Decidable (_ ∧ _))

instance : Decidable f.Valid := inferInstanceAs (Decidable (_ ∧ _))

end Validators

structure MarketSnapshot (φ : Type) extends MarketSnapshotFields Decimal DateTime φ where
  valid : toMarketSnapshotFields.values.Valid

namespace MarketSnapshot

def build (f : MarketSnapshotFields Decimal DateTime φ) : Except PyError (MarketSnapshot φ) :=
  if h : f.values.Valid then .ok ⟨f, h⟩ else .error (.validationError "MarketSnapshot")

/-- Without the candles before the last ones. -/
def eraseHistory (s : MarketSnapshot φ) : MarketSnapshot φ :=
  { s with
    candles := ⟨s.candles.tf5m, s.candles.tf15m, s.candles.tf1h, s.candles.tf4h, [], [], [], []⟩ }

end MarketSnapshot

/-- A row of `market_snapshots`. -/
structure MarketSnapshotRow (δ τ φ : Type) where
  id : String
  botRunId : String
  symbol : Symbol
  timestamp : τ
  openPrice : δ
  high : δ
  low : δ
  close : δ
  volume : δ
  fundingRate : Option φ
  openInterest : Option δ
  bid : Option δ
  ask : Option δ
  spread : Option δ
  extra : Option (List (String × Json φ))

namespace MarketSnapshotRow

def map (g : δ → δ') (h : τ → τ') (row : MarketSnapshotRow δ τ φ) : MarketSnapshotRow δ' τ' φ :=
  { row with
    timestamp := h row.timestamp
    openPrice := g row.openPrice
    high := g row.high
    low := g row.low
    close := g row.close
    volume := g row.volume
    openInterest := row.openInterest.map g
    bid := row.bid.map g
    ask := row.ask.map g
    spread := row.spread.map g }

abbrev values (row : MarketSnapshotRow Decimal DateTime φ) :
    MarketSnapshotRow ℚ DateTime.Moment φ :=
  row.map Decimal.value DateTime.moment

/-- The columns of type `Numeric(20, 8)`. -/
def numbers (row : MarketSnapshotRow δ τ φ) : List δ :=
  [row.openPrice, row.high, row.low, row.close, row.volume] ++ row.openInterest.toList ++
    row.bid.toList ++ row.ask.toList ++ row.spread.toList

/-- Twelve digits before the point and eight after it. -/
def FitsColumns (row : MarketSnapshotRow Decimal DateTime φ) : Prop :=
  ∀ d ∈ row.numbers, |d.value| < 10 ^ 12 ∧ IsDecimal quantPlaces d.value

instance (row : MarketSnapshotRow Decimal DateTime φ) : Decidable row.FitsColumns :=
  inferInstanceAs (Decidable (∀ d ∈ row.numbers, _))

theorem map_congr {g g' : δ → δ'} {row : MarketSnapshotRow δ τ φ}
    (hg : ∀ d ∈ row.numbers, g d = g' d) (h : τ → τ') : row.map g h = row.map g' h := by
  have hoption : ∀ o : Option δ, (∀ d ∈ o, d ∈ row.numbers) → o.map g = o.map g' :=
    fun o ho => Option.map_congr fun d hd => hg d (ho d hd)
  have hinterest := hoption row.openInterest (by simp +contextual [numbers])
  have hbid := hoption row.bid (by simp +contextual [numbers])
  have hask := hoption row.ask (by simp +contextual [numbers])
  have hspread := hoption row.spread (by simp +contextual [numbers])
  simp only [map, hinterest, hbid, hask, hspread, hg row.openPrice (by simp [numbers]),
    hg row.high (by simp [numbers]), hg row.low (by simp [numbers]),
    hg row.close (by simp [numbers]), hg row.volume (by simp [numbers])]

/-- The row as the database gives it back: every number with eight digits after the point. -/
def throughColumns (row : MarketSnapshotRow Decimal DateTime φ) :
    MarketSnapshotRow Decimal DateTime φ :=
  row.map Decimal.column fun time => time

/-- Numbers that fit their columns come back as they were. -/
theorem throughColumns_values {row : MarketSnapshotRow Decimal DateTime φ} (h : row.FitsColumns) :
    row.throughColumns.values = row.values := by
  have hcolumns : row.throughColumns.values = row.map (fun d => d.column.value) DateTime.moment := by
    simp only [throughColumns, values, map, Option.map_map]
    rfl
  rw [hcolumns]
  refine map_congr (fun d hd => ?_) _
  rw [Decimal.value_column]
  exact (quantizeWith_eq_self_iff roundHalfAway_intCast).mpr (h d hd).2

end MarketSnapshotRow

def CandleData.dump (c : CandleData) : Json φ :=
  .object
    [("open", .str c.openPrice.str), ("high", .str c.high.str), ("low", .str c.low.str),
     ("close", .str c.close.str), ("volume", .str c.volume.str), ("n_candles", .int c.nCandles)]

/-- The fields that have no column of their own. -/
def MarketSnapshot.extra (s : MarketSnapshot φ) : List (String × Json φ) :=
  [("exchange", .str (StrEnum.value s.exchange)),
   ("environment", .str (StrEnum.value s.environment)),
   ("market", .str "FUTURES"),
   ("spread_percent", .str s.spreadPercent.str),
   ("volatility", (s.volatility.map Json.float).getD .null),
   ("account_balance_usdt", .str s.accountBalanceUsdt.str),
   ("open_positions_count", .int s.openPositionsCount),
   ("active_orders_count", .int s.activeOrdersCount),
   ("latency_ms", .int s.latencyMs),
   ("exchange_server_time", .str s.exchangeServerTime.isoformat),
   ("local_time", .str s.localTime.isoformat),
   ("clock_skew_ms", .int s.clockSkewMs),
   ("data_freshness_status", .str (StrEnum.value s.dataFreshnessStatus)),
   ("coherence_status", .str (StrEnum.value s.coherenceStatus)),
   ("candles", .object
     [("tf_5m", s.candles.tf5m.dump), ("tf_15m", s.candles.tf15m.dump),
      ("tf_1h", s.candles.tf1h.dump), ("tf_4h", s.candles.tf4h.dump)])]

/-- The close of a row is the last price, not that of the candle. -/
def MarketSnapshot.toDbKwargs (s : MarketSnapshot φ) (botRunId : String) :
    MarketSnapshotRow Decimal DateTime φ where
  id := s.snapshotId
  botRunId := botRunId
  symbol := s.symbol
  timestamp := s.timestampUtc
  openPrice := s.candles.tf5m.openPrice
  high := s.candles.tf5m.high
  low := s.candles.tf5m.low
  close := s.lastPrice
  volume := s.volume
  fundingRate := s.fundingRate
  openInterest := s.openInterest
  bid := some s.bid
  ask := some s.ask
  spread := some s.spreadAbsolute
  extra := some s.extra

end MarketData

end FuturesBot
