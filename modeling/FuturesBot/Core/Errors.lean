import Mathlib.Data.Rat.Defs

namespace FuturesBot

/-- Amounts, prices, rates and scores. The source mixes `Decimal` and `float`. Where a result
depends on how these round, the operations round here too; elsewhere they are exact. None is too
large or too small for either: from `10 ^ 20` on eight decimals no longer fit into the digits of a
`Decimal`, and `quantize` raises. -/
abbrev Amount := ℚ

/-- Seconds of a clock or of a delay, exact. -/
abbrev Seconds := ℚ

abbrev Symbol := String

/-- UUID texts. The identifiers of decisions, orders and runs are drawn by `uuid4` or have
passed the UUID validator before, so the check is not repeated for them. -/
abbrev ClientOrderId := String

/-- Microseconds since the epoch, in UTC. -/
abbrev Timestamp := ℕ

/-- Exceptions that stop at an `except Exception`. Messages keep the fixed text
of the raise site without its interpolated values. -/
inductive PyError
  | valueError (message : String)
  | runtimeError (message : String)
  | keyError (symbol : Symbol)
  | lookupError (symbol : Symbol)
  | validationError (model : String)
  | zeroDivisionError
  | feeRatesUnavailable
  | sqlAlchemyError
  | invalidTransition
  | external (name : String)
  deriving DecidableEq, Repr

/-- A call that may raise. The state it leaves is kept in both cases, as Python
keeps the mutations made before an exception. -/
abbrev Call (σ : Type u) (α : Type v) := σ → Except PyError α × σ

def allowedSymbols : List Symbol := ["BTCUSDT", "ETHUSDT", "BNBUSDT", "SOLUSDT", "XRPUSDT"]

end FuturesBot
