import FuturesBot.Market.CycleService
import FuturesBot.Market.Snapshot

namespace FuturesBot.MarketData
open Lib

variable {φ : Type}

/-- What Python makes of values that are not written the way `to_db_kwargs` does it: `pydantic`
of a value of another type than its field has, `Decimal` and `fromisoformat` of other texts. -/
structure Coercions (φ : Type) where
  int : Json φ → Option ℤ
  float : Json φ → Option φ
  decimalField : Json φ → Option Decimal
  decimal : Json φ → Except PyError Decimal
  fromisoformat : Json φ → Except PyError DateTime

namespace Coercions

variable (L : Coercions φ)

/-- A field that `pydantic` cannot read. -/
def field (model : String) : Option α → Except PyError α
  | some a => .ok a
  | none => .error (.validationError model)

def readInt (model : String) : Json φ → Except PyError ℤ
  | .int n => .ok n
  | j => field model (L.int j)

def readFloat : Json φ → Except PyError (Option φ)
  | .null => .ok none
  | .float x => .ok (some x)
  | j => (field "MarketSnapshot" (L.float j)).map some

def readEnvironment : Json φ → Except PyError Environment
  | .str text => field "MarketSnapshot" (StrEnum.ofValue Environment text)
  | _ => .error (.validationError "MarketSnapshot")

def readDecimalField : Json φ → Except PyError Decimal
  | .str text => field "CandleData" (Decimal.ofText text <|> L.decimalField (.str text))
  | j => field "CandleData" (L.decimalField j)

/-- `Decimal(str(value))`. -/
def readDecimal : Json φ → Except PyError Decimal
  | .str text =>
    match Decimal.ofText text with
    | some d => .ok d
    | none => L.decimal (.str text)
  | j => L.decimal j

def readDateTime : Json φ → Except PyError DateTime
  | .str text =>
    match DateTime.ofExtended text with
    | some t => .ok t
    | none => L.fromisoformat (.str text)
  | j => L.fromisoformat j

end Coercions

/-- The member of an enumeration that is built from a value. -/
def member (ε : Type) [DecidableEq ε] [StrEnum ε] (name : String) : Json φ → Except PyError ε
  | .str text =>
    match StrEnum.ofValue ε text with
    | some e => .ok e
    | none => .error (.valueError name)
  | _ => .error (.valueError name)

def item (fields : List (String × Json φ)) (key : String) : Except PyError (Json φ) :=
  match fields.lookup key with
  | some j => .ok j
  | none => .error (.keyError key)

/-- `CandleData.model_validate`. -/
def validateCandle (L : Coercions φ) : Json φ → Except PyError CandleData
  | .object fields => do
    let field key := Coercions.field "CandleData" (fields.lookup key)
    let openPrice ← L.readDecimalField (← field "open")
    let high ← L.readDecimalField (← field "high")
    let low ← L.readDecimalField (← field "low")
    let close ← L.readDecimalField (← field "close")
    let volume ← L.readDecimalField (← field "volume")
    let nCandles ← L.readInt "CandleData" (← field "n_candles")
    CandleData.build ⟨openPrice, high, low, close, volume, nCandles⟩
  | _ => .error (.validationError "CandleData")

def candle (L : Coercions φ) (candlesRaw : Json φ) (tf : String) : Except PyError CandleData :=
  match candlesRaw with
  | .object fields => do validateCandle L (← item fields tf)
  | _ => .error (.external "TypeError")

def snapshotRowToPydantic (L : Coercions φ) (row : MarketSnapshotRow Decimal DateTime φ) :
    Except PyError (MarketSnapshot φ) := do
  let extra := row.extra.getD []
  let some candlesRaw := extra.lookup "candles"
    | throw (.valueError "Snapshot no tiene candles en extra; schema incompatible")
  match row.bid, row.ask, row.spread with
  | some bid, some ask, some spread => do
    let exchange ← member Exchange "Exchange" (← item extra "exchange")
    let environment ← item extra "environment"
    let spreadPercent ← L.readDecimal (← item extra "spread_percent")
    let tf5m ← candle L candlesRaw "tf_5m"
    let tf15m ← candle L candlesRaw "tf_15m"
    let tf1h ← candle L candlesRaw "tf_1h"
    let tf4h ← candle L candlesRaw "tf_4h"
    let accountBalanceUsdt ← L.readDecimal (← item extra "account_balance_usdt")
    let openPositionsCount ← item extra "open_positions_count"
    let activeOrdersCount ← item extra "active_orders_count"
    let latencyMs ← item extra "latency_ms"
    let exchangeServerTime ← L.readDateTime (← item extra "exchange_server_time")
    let localTime ← L.readDateTime (← item extra "local_time")
    let clockSkewMs ← item extra "clock_skew_ms"
    let dataFreshnessStatus ←
      member DataFreshnessStatus "DataFreshnessStatus" (← item extra "data_freshness_status")
    let coherenceStatus ← member CoherenceStatus "CoherenceStatus" (← item extra "coherence_status")
    -- from here on it is the constructor that checks
    let environment ← Coercions.readEnvironment environment
    let volatility ← L.readFloat ((extra.lookup "volatility").getD .null)
    let openPositionsCount ← L.readInt "MarketSnapshot" openPositionsCount
    let activeOrdersCount ← L.readInt "MarketSnapshot" activeOrdersCount
    let latencyMs ← L.readInt "MarketSnapshot" latencyMs
    let clockSkewMs ← L.readInt "MarketSnapshot" clockSkewMs
    MarketSnapshot.build
      { snapshotId := row.id
        timestampUtc := row.timestamp
        exchange := exchange
        environment := environment
        symbol := row.symbol
        lastPrice := row.close
        bid := bid
        ask := ask
        spreadAbsolute := spread
        spreadPercent := spreadPercent
        candles := { tf5m := tf5m, tf15m := tf15m, tf1h := tf1h, tf4h := tf4h }
        volume := row.volume
        volatility := volatility
        fundingRate := row.fundingRate
        openInterest := row.openInterest
        accountBalanceUsdt := accountBalanceUsdt
        openPositionsCount := openPositionsCount
        activeOrdersCount := activeOrdersCount
        latencyMs := latencyMs
        exchangeServerTime := exchangeServerTime
        localTime := localTime
        clockSkewMs := clockSkewMs
        dataFreshnessStatus := dataFreshnessStatus
        coherenceStatus := coherenceStatus }
  | _, _, _ =>
    throw (.valueError "Snapshot no tiene bid/ask/spread persistidos; no se puede reconstruir")

theorem readDecimalField_str (L : Coercions φ) (d : Decimal) :
    L.readDecimalField (.str d.str) = .ok d := by
  rw [Coercions.readDecimalField, Decimal.ofText_str]
  rfl

theorem readDecimal_str (L : Coercions φ) (d : Decimal) : L.readDecimal (.str d.str) = .ok d := by
  rw [Coercions.readDecimal, Decimal.ofText_str]

theorem readDateTime_isoformat (L : Coercions φ) (t : DateTime) :
    L.readDateTime (.str t.isoformat) = .ok t := by
  rw [Coercions.readDateTime, DateTime.ofExtended_isoformat]

theorem member_value [DecidableEq ε] [StrEnum ε] (name : String) (e : ε) :
    member ε name (.str (StrEnum.value e) : Json φ) = .ok e := by
  rw [member, StrEnum.ofValue_value]

theorem readEnvironment_value (e : Environment) :
    Coercions.readEnvironment (.str (StrEnum.value e) : Json φ) = .ok e := by
  rw [Coercions.readEnvironment, StrEnum.ofValue_value]
  rfl

theorem readFloat_option (L : Coercions φ) (x : Option φ) :
    L.readFloat ((x.map Json.float).getD .null) = .ok x := by
  cases x <;> rfl

theorem ok_bind (a : α) (f : α → Except ε β) : (Except.ok a >>= f) = f a := rfl

theorem validateCandle_dump (L : Coercions φ) (c : CandleData) : validateCandle L c.dump = .ok c := by
  simp only [CandleData.dump, validateCandle, List.lookup_cons, Coercions.field, String.reduceBEq,
    readDecimalField_str, Coercions.readInt, ok_bind]
  exact dif_pos c.valid

/-- A snapshot that has the fields of a row in place of its own. -/
def MarketSnapshot.fromRow (s : MarketSnapshot φ) (row : MarketSnapshotRow Decimal DateTime φ)
    (bid ask spread : Decimal) : MarketSnapshotFields Decimal DateTime φ :=
  { s.eraseHistory.toMarketSnapshotFields with
    snapshotId := row.id
    timestampUtc := row.timestamp
    symbol := row.symbol
    lastPrice := row.close
    bid := bid
    ask := ask
    spreadAbsolute := spread
    volume := row.volume
    fundingRate := row.fundingRate
    openInterest := row.openInterest }

/-- Everything else is rebuilt from what `extra` has kept of a snapshot. -/
theorem snapshotRowToPydantic_eq (L : Coercions φ) (s : MarketSnapshot φ)
    (row : MarketSnapshotRow Decimal DateTime φ) (hextra : row.extra = some s.extra)
    (hbid : row.bid = some bid) (hask : row.ask = some ask) (hspread : row.spread = some spread) :
    snapshotRowToPydantic L row = MarketSnapshot.build (s.fromRow row bid ask spread) := by
  unfold snapshotRowToPydantic
  rw [hextra, hbid, hask, hspread]
  simp only [MarketSnapshot.extra, item, List.lookup_cons, String.reduceBEq, Option.getD_some, ok_bind,
    member_value, readDecimal_str, readDateTime_isoformat, candle, validateCandle_dump,
    Coercions.readInt, readEnvironment_value, readFloat_option]
  rfl

/-- A row that is read before it is stored gives back the snapshot itself. -/
theorem snapshotRowToPydantic_toDbKwargs (L : Coercions φ) (s : MarketSnapshot φ)
    (botRunId : String) : snapshotRowToPydantic L (s.toDbKwargs botRunId) = .ok s.eraseHistory := by
  rw [snapshotRowToPydantic_eq L s (s.toDbKwargs botRunId) rfl rfl rfl rfl]
  exact dif_pos s.eraseHistory.valid

def sampleCandle : CandleData :=
  ⟨⟨⟨false, 1000, -1⟩, ⟨false, 102, 0⟩, ⟨false, 99, 0⟩, ⟨false, 1005, -1⟩, ⟨false, 25, 2⟩, 50⟩,
    by decide +kernel⟩

def sampleTime : DateTime :=
  ⟨⟨2024, 2, 29, 23, 59, 58, 250000, some 0⟩, by decide +kernel⟩

def sampleSnapshot : MarketSnapshot ℚ where
  snapshotId := "snapshot"
  timestampUtc := sampleTime
  exchange := .bingx
  environment := .paper
  symbol := "BTCUSDT"
  lastPrice := ⟨false, 1005, -1⟩
  bid := ⟨false, 100, 0⟩
  ask := ⟨false, 101, 0⟩
  spreadAbsolute := ⟨false, 1, 0⟩
  spreadPercent := ⟨false, 100, -2⟩
  candles := ⟨sampleCandle, sampleCandle, sampleCandle, sampleCandle, [sampleCandle], [], [], []⟩
  volume := ⟨false, 25, 2⟩
  volatility := none
  fundingRate := some (1 / 10000)
  openInterest := none
  accountBalanceUsdt := ⟨false, 1, 3⟩
  openPositionsCount := 0
  activeOrdersCount := 0
  latencyMs := 120
  exchangeServerTime := sampleTime
  localTime := sampleTime
  clockSkewMs := -3
  dataFreshnessStatus := .fresh
  coherenceStatus := .ok
  valid := by decide +kernel

/-- Coercions that refuse everything. -/
def strictCoercions : Coercions ℚ where
  int _ := none
  float _ := none
  decimalField _ := none
  decimal _ := .error (.external "InvalidOperation")
  fromisoformat _ := .error (.valueError "Invalid isoformat string")

/-- Whatever of a row comes back from its columns with the same numbers and times, the snapshot
is rebuilt from it, without the candles before the last ones. -/
theorem snapshot_round_trip (L : Coercions φ)
    (stored : MarketSnapshotRow Decimal DateTime φ → MarketSnapshotRow Decimal DateTime φ)
    (hstored : ∀ row, row.FitsColumns → (stored row).values = row.values) (s : MarketSnapshot φ)
    (botRunId : String) (hfits : (s.toDbKwargs botRunId).FitsColumns) :
    ∃ rebuilt, snapshotRowToPydantic L (stored (s.toDbKwargs botRunId)) = .ok rebuilt ∧
      rebuilt.toMarketSnapshotFields.values = s.eraseHistory.toMarketSnapshotFields.values := by
  have hvalues := hstored _ hfits
  generalize stored (s.toDbKwargs botRunId) = row at hvalues ⊢
  have hid : row.id = s.snapshotId := congrArg MarketSnapshotRow.id hvalues
  have hsymbol : row.symbol = s.symbol := congrArg MarketSnapshotRow.symbol hvalues
  have htimestamp : row.timestamp.moment = s.timestampUtc.moment :=
    congrArg MarketSnapshotRow.timestamp hvalues
  have hclose : row.close.value = s.lastPrice.value := congrArg MarketSnapshotRow.close hvalues
  have hvolume : row.volume.value = s.volume.value := congrArg MarketSnapshotRow.volume hvalues
  have hfunding : row.fundingRate = s.fundingRate := congrArg MarketSnapshotRow.fundingRate hvalues
  have hinterest : row.openInterest.map Decimal.value = s.openInterest.map Decimal.value :=
    congrArg MarketSnapshotRow.openInterest hvalues
  have hextra : row.extra = some s.extra := congrArg MarketSnapshotRow.extra hvalues
  obtain ⟨bid, hbid, hbid_value⟩ :=
    Option.map_eq_some_iff.mp (congrArg MarketSnapshotRow.bid hvalues)
  obtain ⟨ask, hask, hask_value⟩ :=
    Option.map_eq_some_iff.mp (congrArg MarketSnapshotRow.ask hvalues)
  obtain ⟨spread, hspread, hspread_value⟩ :=
    Option.map_eq_some_iff.mp (congrArg MarketSnapshotRow.spread hvalues)
  have hsame : (s.fromRow row bid ask spread).values = s.eraseHistory.toMarketSnapshotFields.values := by
    simp only [MarketSnapshot.fromRow, MarketSnapshotFields.values, MarketSnapshotFields.map, hid,
      hsymbol, htimestamp, hclose, hvolume, hfunding, hinterest, hbid_value, hask_value,
      hspread_value]
    rfl
  have hvalid : (s.fromRow row bid ask spread).values.Valid := by
    rw [hsame]
    exact s.eraseHistory.valid
  rw [snapshotRowToPydantic_eq L s row hextra hbid hask hspread]
  exact ⟨⟨s.fromRow row bid ask spread, hvalid⟩, dif_pos hvalid, hsame⟩

theorem sampleSnapshot_round_trip :
    ∃ rebuilt, snapshotRowToPydantic strictCoercions
        (sampleSnapshot.toDbKwargs "run").throughColumns = .ok rebuilt ∧
      rebuilt.toMarketSnapshotFields.values =
        sampleSnapshot.eraseHistory.toMarketSnapshotFields.values :=
  snapshot_round_trip strictCoercions MarketSnapshotRow.throughColumns
    (fun _ => MarketSnapshotRow.throughColumns_values) sampleSnapshot "run" (by decide +kernel)

/-- What the cycle reads of a snapshot. -/
def MarketSnapshotFields.cycleFields (amount : φ → Amount)
    (f : MarketSnapshotFields ℚ DateTime.Moment φ) : FuturesBot.MarketSnapshotFields where
  symbol := f.symbol
  bid := f.bid
  ask := f.ask
  lastPrice := f.lastPrice
  fundingRate := f.fundingRate.map amount
  accountBalanceUsdt := f.accountBalanceUsdt
  openPositionsCount := f.openPositionsCount.toNat
  activeOrdersCount := f.activeOrdersCount.toNat
  latencyMs := f.latencyMs
  clockSkewMs := f.clockSkewMs

theorem MarketSnapshotFields.Valid.cycleFields {f : MarketSnapshotFields ℚ DateTime.Moment φ}
    (h : f.Valid) (amount : φ → Amount) : (f.cycleFields amount).Valid := by
  obtain ⟨⟨hlast, hbid, hask, -, -, -, hbalance, -, -, hlatency, hskew⟩, hsymbol, -,
    hspread, -, -, -, hlow, hhigh⟩ := h
  exact ⟨hlast, hbid, hask, hbalance, hlatency, hskew, hsymbol, hspread, hlow, hhigh⟩

def MarketSnapshot.cycleView (amount : φ → Amount) (s : MarketSnapshot φ) :
    FuturesBot.MarketSnapshot :=
  ⟨s.toMarketSnapshotFields.values.cycleFields amount, s.valid.cycleFields amount⟩

/-- The cycle cannot tell a rebuilt snapshot from the one that was written. -/
theorem cycleView_eq (amount : φ → Amount) {s s' : MarketSnapshot φ}
    (h : s'.toMarketSnapshotFields.values = s.eraseHistory.toMarketSnapshotFields.values) :
    s'.cycleView amount = s.cycleView amount := by
  have hfields : s'.toMarketSnapshotFields.values.cycleFields amount =
      s.toMarketSnapshotFields.values.cycleFields amount := by
    rw [h]
    rfl
  simp only [MarketSnapshot.cycleView, hfields]

end FuturesBot.MarketData
