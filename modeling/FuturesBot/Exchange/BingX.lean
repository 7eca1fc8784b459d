import FuturesBot.Core.Config
import FuturesBot.Core.Retry
import FuturesBot.Exchange.Adapter
import FuturesBot.Lib.Dict
import FuturesBot.Lib.Effect
import Mathlib.Data.List.Sort

namespace FuturesBot
open Lib

/-- Why an API error was raised: the code that the exchange answered with, if it gave one, or
an open circuit. -/
inductive ApiCause
  | answered (code : Option ℤ)
  | circuitOpen (failures : ℕ)
  deriving DecidableEq, Repr

/-- What a call of the adapter may raise. -/
inductive BingXError
  | httpStatusError (statusCode : ℕ)
  | requestError
  | bingXApiError (cause : ApiCause)
  | other (e : PyError)
  deriving DecidableEq, Repr

def BingXError.isApiError : BingXError → Bool
  | .bingXApiError _ => true
  | _ => false

/-- No answer at all, or one that the server itself failed at. -/
def isRetryableBingxError : BingXError → Bool
  | .httpStatusError statusCode => 500 ≤ statusCode
  | .requestError => true
  | .bingXApiError _ | .other _ => false

/-- A number in the text of an answer, as `Decimal` reads it. -/
abbrev DecimalText := Except PyError Amount

/-- An order as the exchange writes it; empty texts are missing ones. -/
structure RawOrder where
  clientOrderID : Option String := none
  clientOrderId : Option String := none
  side : Option String := none
  type : Option String := none
  status : Option String := none
  origQty : Option DecimalText := none
  executedQty : Option DecimalText := none
  avgPrice : Option DecimalText := none
  price : Option DecimalText := none
  fee : Option DecimalText := none
  time : Option ℕ := none
  updateTime : Option ℕ := none

structure RawPosition where
  positionAmt : DecimalText
  avgPrice : DecimalText
  markPrice : DecimalText
  unrealizedProfit : DecimalText
  initialMargin : DecimalText
  leverage : Except PyError ℤ

structure RawBalance where
  balance : DecimalText
  equity : DecimalText
  availableMargin : DecimalText
  usedMargin : DecimalText

/-- The `data` of an answer. The one about an order has it under a key of its own, where it may
be empty, or is the order itself. -/
inductive ResponseData
  | order (nested : Option (Option RawOrder)) (top : Option RawOrder)
  | openOrders (orders : List RawOrder)
  | positions (positions : List RawPosition)
  | balance (balance : RawBalance)
  | commission (maker taker : DecimalText)
  | other

structure ResponseBody where
  code : Option ℤ
  data : Option ResponseData

/-- What a request ends in: no answer, or a status with a body that may not be readable. -/
inductive HttpOutcome
  | requestError
  | response (statusCode : ℕ) (body : Except PyError ResponseBody)

/-- `raise_for_status`, the code of the body and its data. -/
def HttpOutcome.read : HttpOutcome → Except BingXError ResponseData
  | .requestError => .error .requestError
  | .response statusCode body =>
    if ¬(200 ≤ statusCode ∧ statusCode ≤ 299) then .error (.httpStatusError statusCode)
    else
      match body with
      | .error e => .error (.other e)
      | .ok body =>
        if body.code.getD (-1) ≠ 0 then .error (.bingXApiError (.answered body.code))
        else
          match body.data with
          | none => .error (.other (.keyError "data"))
          | some data => .ok data

/-- The parameters of a new order, in the symbols of the exchange. -/
structure OrderParams where
  symbol : String
  type : OrderType
  side : OrderSide
  quantity : Amount
  clientOrderID : String
  reduceOnly : Bool
  price : Option Amount
  stopPrice : Option Amount

inductive BingXRequest
  | balance
  | positions (symbol : String)
  | openOrders (symbol : String)
  | order (symbol clientOrderID : String)
  | commissionRate
  | placeOrder (params : OrderParams)
  | cancelOrder (symbol clientOrderID : String)
  | leverage (symbol : String) (leverage : ℤ)
  | marginType (symbol : String) (marginType : MarginType)
  | oneWayMode

/-- The exchange behind HTTP and the clocks. -/
structure BingXWorld (ω : Type) extends RetryWorld ω where
  http : BingXRequest → ω → HttpOutcome × ω
  utcNow : ω → Timestamp

structure BingXAdapter (ω : Type) extends BingXWorld ω where
  environment : Environment
  allowedSymbols : List Symbol

structure BingXState (ω : Type) where
  retry : RetryState ω BingXError
  orderSymbolCache : Dict ClientOrderId Symbol := .empty
  oneWayVerified : Bool := false
  isolatedVerifiedSymbols : List Symbol := []
  feeRatesCache : Option (FeeRates × Seconds) := none

/-- A call of the adapter. -/
abbrev BingXCall (ω : Type) (α : Type) := Eff (BingXState ω) BingXError α

/-- All symbols end in USDT. -/
def toBingxSymbol (symbol : Symbol) : String :=
  String.ofList (symbol.toList.take (symbol.length - 4)) ++ "-USDT"

def statusMap : String → OrderStatus
  | "NEW" | "PENDING" => .pending
  | "PARTIALLY_FILLED" => .partiallyFilled
  | "FILLED" => .filled
  | "CANCELED" | "CANCELLED" | "EXPIRED" => .cancelled
  | _ => .failed

/-- An unknown type is taken for a market order. -/
def orderTypeMap : String → OrderType
  | "LIMIT" => .limit
  | "STOP_MARKET" => .stopMarket
  | "TAKE_PROFIT_MARKET" => .takeProfitMarket
  | _ => .market

def parseSide : Option String → Except PyError OrderSide
  | none => .error (.keyError "side")
  | some "BUY" => .ok .buy
  | some "SELL" => .ok .sell
  | some _ => .error (.valueError "OrderSide")

/-- A time in milliseconds, if one is given. -/
def RawOrder.timeMs (raw : RawOrder) : ℕ :=
  ((raw.time.filter (· ≠ 0)) <|> raw.updateTime).getD 0

def parseOrder (now : Timestamp) (raw : RawOrder) (symbol : Symbol) :
    Except PyError OrderResult := do
  let price ← (raw.avgPrice <|> raw.price).getD (.ok 0)
  let side ← parseSide raw.side
  let quantityRequested ← raw.origQty.getD (.ok 0)
  let quantityFilled ← raw.executedQty.getD (.ok 0)
  let fee ← raw.fee.getD (.ok 0)
  OrderResult.build
    { clientOrderId := (raw.clientOrderID <|> raw.clientOrderId).getD ""
      symbol := symbol
      side := side
      orderType := orderTypeMap (raw.type.getD "MARKET")
      status := statusMap (raw.status.getD "FAILED")
      quantityRequested := quantityRequested
      quantityFilled := quantityFilled
      fillPrice := if 0 < price then some price else none
      feeUsdt := fee
      slippageUsdt := none
      isSimulated := false
      timestampUtc := if raw.timeMs = 0 then now else raw.timeMs * 1000 }

/-- What is under the key, else the data itself; an empty order is none. -/
def extractOrder : ResponseData → Option RawOrder
  | .order (some nested) _ => nested
  | .order none top => top
  | _ => some {}

/-- Up to four attempts, the first retry after half a second. -/
def bingxRetryConfig : RetryConfig where
  maxAttempts := 4
  baseDelaySeconds := 1 / 2
  maxDelaySeconds := 8

def RetryError.toBingX : RetryError BingXError → BingXError
  | .raised e => e
  | .circuitOpen failures => .bingXApiError (.circuitOpen failures)
  | .assertion => .other (.external "AssertionError")
  | .overflow => .other (.external "OverflowError")
  | .sleepRefused => .other (.valueError "sleep length must be non-negative")

namespace BingXAdapter

variable {ω : Type}

/-- One signed request, which may be sent several times. -/
def requestCall (A : BingXAdapter ω) (request : BingXRequest) :
    RetryCall ω BingXError ResponseData where
  operation w := let (outcome, w) := A.http request w; (outcome.read, w)
  config := bingxRetryConfig
  isRetryable := isRetryableBingxError

def signedRequest (A : BingXAdapter ω) (request : BingXRequest) : BingXCall ω ResponseData :=
  fun s =>
    let (result, retry) := (A.requestCall request).retrySync A.toRetryWorld s.retry
    (result.mapError RetryError.toBingX, { s with retry := retry })

def cacheOrder (clientOrderId : ClientOrderId) (symbol : Symbol) : BingXCall ω PUnit :=
  Eff.modify fun s => { s with orderSymbolCache := s.orderSymbolCache.set clientOrderId symbol }

/-- The order of an answer, with the time of reading it for one that has none. -/
def readOrder (A : BingXAdapter ω) (raw : RawOrder) (symbol : Symbol) : BingXCall ω OrderResult :=
  fun s => ((parseOrder (A.utcNow s.retry.world) raw symbol).mapError .other, s)

def getAccountState (A : BingXAdapter ω) : BingXCall ω AccountState := do
  let data ← A.signedRequest .balance
  Eff.ofExcept <| Except.mapError BingXError.other <|
    match data with
    | .balance b => do
      let balance ← b.balance
      let equity ← b.equity
      let available ← b.availableMargin
      let used ← b.usedMargin
      if h : 0 ≤ available ∧ 0 ≤ used then
        .ok ⟨balance, equity, available, used, false, h.1, h.2⟩
      else .error (.validationError "AccountState")
    | _ => .error (.keyError "balance")

/-- A quantity of nothing is no position. -/
def parsePosition (symbol : Symbol) (raw : RawPosition) : Except PyError (Option PositionState) := do
  let amount ← raw.positionAmt
  if amount = 0 then return none
  let entryPrice ← raw.avgPrice
  let markPrice ← raw.markPrice
  let unrealizedPnl ← raw.unrealizedProfit
  let margin ← raw.initialMargin
  let leverage ← raw.leverage
  let position ← PositionState.build
    { symbol := symbol
      side := if 0 < amount then .buy else .sell
      quantity := |amount|
      entryPrice := entryPrice
      markPrice := some markPrice
      unrealizedPnl := unrealizedPnl
      marginUsdt := margin
      leverage := leverage
      isSimulated := false }
  return some position

def getPosition (A : BingXAdapter ω) (symbol : Symbol) : BingXCall ω (Option PositionState) := do
  let data ← A.signedRequest (.positions (toBingxSymbol symbol))
  Eff.ofExcept <| Except.mapError BingXError.other <|
    match data with
    | .positions [] => .ok none
    | .positions (raw :: _) => parsePosition symbol raw
    | _ => .error (.external "TypeError")

/-- The open orders of an answer, each remembered before it is read. -/
def readOpenOrders (A : BingXAdapter ω) (symbol : Symbol) :
    List RawOrder → BingXCall ω (List OrderResult)
  | [] => pure []
  | raw :: raws => do
    match raw.clientOrderId with
    | some clientOrderId => cacheOrder clientOrderId symbol
    | none => pure ⟨⟩
    let result ← A.readOrder raw symbol
    let results ← A.readOpenOrders symbol raws
    return result :: results

def getOpenOrders (A : BingXAdapter ω) (symbol : Symbol) : BingXCall ω (List OrderResult) := do
  let data ← A.signedRequest (.openOrders (toBingxSymbol symbol))
  match data with
  | .openOrders raws => A.readOpenOrders symbol raws
  | _ => pure []

/-- The errors after which a lookup tries the next symbol. -/
def goesOn : BingXError → Bool
  | .bingXApiError _ | .httpStatusError _ => true
  | .requestError | .other _ => false

/-- The symbol of an order that was found is remembered before the order is read. -/
def takeOrder (A : BingXAdapter ω) (clientOrderId : ClientOrderId) (symbol : Symbol) :
    Option RawOrder → BingXCall ω (Option OrderResult)
  | some raw => do
    cacheOrder clientOrderId symbol
    let result ← A.readOrder raw symbol
    return some result
  | none => pure none

/-- One symbol of a lookup. -/
def probe (A : BingXAdapter ω) (clientOrderId : ClientOrderId) (symbol : Symbol) :
    BingXCall ω (Option OrderResult) := do
  let data ← A.signedRequest (.order (toBingxSymbol symbol) clientOrderId)
  A.takeOrder clientOrderId symbol (extractOrder data)

def probeAll (A : BingXAdapter ω) (clientOrderId : ClientOrderId) :
    List Symbol → BingXCall ω (Option OrderResult)
  | [] => pure none
  | symbol :: symbols => do
    let found ← tryCatch (A.probe clientOrderId symbol) fun e =>
      if goesOn e then pure none else throw e
    match found with
    | some result => pure (some result)
    | none => probeAll A clientOrderId symbols

/-- The symbol that the order was last seen under, then the others in their order. -/
def candidates (A : BingXAdapter ω) (clientOrderId : ClientOrderId) (s : BingXState ω) :
    List Symbol :=
  let cached := ((s.orderSymbolCache.get clientOrderId).filter (· ≠ "")).toList
  cached ++ (A.allowedSymbols.insertionSort (· ≤ ·)).filter (· ∉ cached)

def getOrderStatus (A : BingXAdapter ω) (clientOrderId : ClientOrderId) :
    BingXCall ω (Option OrderResult) := fun s =>
  A.probeAll clientOrderId (A.candidates clientOrderId s) s

/-- The order of a symbol. Any API error is taken for an order that does not exist, and every
other error goes on. -/
def queryOrder (A : BingXAdapter ω) (symbol : Symbol) (clientOrderId : ClientOrderId) :
    BingXCall ω (Option OrderResult) := do
  let answer ← tryCatch
    (do return some (← A.signedRequest (.order (toBingxSymbol symbol) clientOrderId)))
    fun e => if e.isApiError then pure none else throw e
  A.takeOrder clientOrderId symbol (answer.bind extractOrder)

def ensureOneWayMode (A : BingXAdapter ω) : BingXCall ω PUnit := do
  let s ← Eff.get
  if s.oneWayVerified then pure ⟨⟩
  else do
    let _ ← A.signedRequest .oneWayMode
    Eff.modify fun s => { s with oneWayVerified := true }

def setMarginType (A : BingXAdapter ω) (symbol : Symbol) (marginType : MarginType) :
    BingXCall ω PUnit := do
  if marginType = .cross then
    throw (.other (.valueError "Cross margin está prohibido. Solo se permite ISOLATED."))
  else do
    let _ ← A.signedRequest (.marginType (toBingxSymbol symbol) marginType)
    pure ⟨⟩

def ensureIsolatedMargin (A : BingXAdapter ω) (symbol : Symbol) : BingXCall ω PUnit := do
  let s ← Eff.get
  if symbol ∈ s.isolatedVerifiedSymbols then pure ⟨⟩
  else do
    A.setMarginType symbol .isolated
    Eff.modify fun s => { s with isolatedVerifiedSymbols := symbol :: s.isolatedVerifiedSymbols }

def orderParams (request : OrderRequest) : OrderParams where
  symbol := toBingxSymbol request.symbol
  type := request.orderType
  side := request.side
  quantity := request.quantity
  clientOrderID := request.clientOrderId
  reduceOnly := request.isReduceOnly
  price := request.price
  stopPrice := request.stopPrice

/-- What has become of the order that was sent: the answer to it, or the order as it was found
afterwards. -/
def sendOrder (A : BingXAdapter ω) (request : OrderRequest) :
    BingXCall ω (ResponseData ⊕ OrderResult) :=
  tryCatch (do return .inl (← A.signedRequest (.placeOrder (orderParams request)))) fun e => do
    if e.isApiError then
      match ← A.queryOrder request.symbol request.clientOrderId with
      | some existing => do
        cacheOrder existing.clientOrderId request.symbol
        return .inr existing
      | none => throw e
    else throw e

/-- The order has to be under its key. -/
def placedOrder : ResponseData → Except BingXError RawOrder
  | .order (some nested) _ => .ok (nested.getD {})
  | _ => .error (.other (.keyError "order"))

def placeOrder (A : BingXAdapter ω) (request : OrderRequest) : BingXCall ω OrderResult := do
  A.ensureOneWayMode
  A.ensureIsolatedMargin request.symbol
  match ← A.queryOrder request.symbol request.clientOrderId with
  | some existing => pure existing
  | none => do
    match ← A.sendOrder request with
    | .inr existing => pure existing
    | .inl data => do
      let raw ← Eff.ofExcept (placedOrder data)
      let result ← A.readOrder raw request.symbol
      cacheOrder result.clientOrderId request.symbol
      return result

def cancelOrder (A : BingXAdapter ω) (clientOrderId : ClientOrderId) : BingXCall ω Bool := do
  match ← A.getOrderStatus clientOrderId with
  | none => pure false
  | some existing =>
    if existing.status ≠ .pending ∧ existing.status ≠ .partiallyFilled then pure false
    else
      tryCatch
        (do
          let _ ← A.signedRequest (.cancelOrder (toBingxSymbol existing.symbol) clientOrderId)
          pure true)
        fun e => do
          if e.isApiError then
            -- a cancelled order counts, one that was executed in the meantime does not
            match ← A.getOrderStatus clientOrderId with
            | some after => pure (after.status = .cancelled)
            | none => pure false
          else throw e

def maxLeverage : Environment → ℤ
  | .paper => 10
  | .testnet | .live => 5

def setLeverage (A : BingXAdapter ω) (symbol : Symbol) (leverage : ℤ) : BingXCall ω PUnit := do
  if leverage < 1 ∨ maxLeverage A.environment < leverage then
    throw (.other (.valueError "Leverage fuera del rango permitido"))
  else do
    let _ ← A.signedRequest (.leverage (toBingxSymbol symbol) leverage)
    pure ⟨⟩

/-- Every failure that is caught becomes the error that the contract has for it. -/
def feeRatesError : BingXError → BingXError
  | .other (.external name) =>
    if name = "InvalidOperation" ∨ name = "TypeError" then .other .feeRatesUnavailable
    else .other (.external name)
  | _ => .other .feeRatesUnavailable

def fetchFeeRates (A : BingXAdapter ω) : BingXCall ω FeeRates := do
  let data ← A.signedRequest .commissionRate
  Eff.ofExcept <| Except.mapError BingXError.other <|
    match data with
    | .commission maker taker => do
      let maker ← maker
      let taker ← taker
      if h : (0 ≤ maker ∧ maker < 1) ∧ 0 ≤ taker ∧ taker < 1 then .ok ⟨maker, taker, h.1, h.2⟩
      else .error (.valueError "fee rate fuera de [0, 1)")
    | _ => .error (.keyError "commission")

def readClock (A : BingXAdapter ω) : BingXCall ω Seconds := fun s =>
  let (now, w) := A.monotonic s.retry.world
  (.ok now, { s with retry := { s.retry with world := w } })

/-- Rates that were read within the hour are not asked for again. -/
def getFeeRates (A : BingXAdapter ω) : BingXCall ω FeeRates := do
  let now ← A.readClock
  let s ← Eff.get
  match s.feeRatesCache.filter (fun cached => now - cached.2 < 3600) with
  | some (rates, _) => pure rates
  | none => do
    let rates ← tryCatch A.fetchFeeRates fun e => throw (feeRatesError e)
    Eff.modify fun s => { s with feeRatesCache := some (rates, now) }
    return rates

end BingXAdapter

end FuturesBot
