import FuturesBot.Lib.Base64
import FuturesBot.Lib.Dict
import FuturesBot.Lib.Drawdown
import FuturesBot.Lib.Effect
import FuturesBot.Lib.Json
import FuturesBot.Lib.Keyed
import FuturesBot.Lib.Locality
import FuturesBot.Lib.LockOrder
import FuturesBot.Lib.LockedLog
import FuturesBot.Lib.Loops
import FuturesBot.Lib.Periods
import FuturesBot.Lib.Quantize
import FuturesBot.Lib.Reading
import FuturesBot.Lib.Rounding
import FuturesBot.Lib.Runs
import FuturesBot.Lib.Scores
import FuturesBot.Lib.Smoothing
import FuturesBot.Lib.Swings
import FuturesBot.Lib.Transactions
import FuturesBot.Lib.Windows
import FuturesBot.Core.Arithmetic
import FuturesBot.Core.BreakerRuns
import FuturesBot.Core.Config
import FuturesBot.Core.Constants
import FuturesBot.Core.DateTimes
import FuturesBot.Core.Decimals
import FuturesBot.Core.Errors
import FuturesBot.Core.HalfOpen
import FuturesBot.Core.Instants
import FuturesBot.Core.JsonValues
import FuturesBot.Core.Retry
import FuturesBot.Core.RetryAlone
import FuturesBot.Core.RetryAsync
import FuturesBot.Core.RetryOutcomes
import FuturesBot.Core.Uuids
import FuturesBot.Auth.Alone
import FuturesBot.Auth.Backoff
import FuturesBot.Auth.Counting
import FuturesBot.Auth.Deadlock
import FuturesBot.Auth.Guesses
import FuturesBot.Auth.Hashing
import FuturesBot.Auth.Login
import FuturesBot.Auth.Schemas
import FuturesBot.Auth.Server
import FuturesBot.Auth.Sessions
import FuturesBot.Auth.Throttle
import FuturesBot.Auth.ThrottleRuns
import FuturesBot.Auth.TokenRoundTrip
import FuturesBot.Auth.Tokens
import FuturesBot.Control.BotState
import FuturesBot.Control.EmergencyStop
import FuturesBot.Control.KillSwitch
import FuturesBot.Control.Outlives
import FuturesBot.Control.Restart
import FuturesBot.Control.Triggers
import FuturesBot.Control.WorkerWaits
import FuturesBot.Control.Workers
import FuturesBot.Decision.AggregationLaws
import FuturesBot.Decision.Aggregator
import FuturesBot.Decision.Envelope
import FuturesBot.Decision.GptClient
import FuturesBot.Decision.Outcomes
import FuturesBot.Decision.Requests
import FuturesBot.Decision.Schemas
import FuturesBot.Decision.Shapes
import FuturesBot.Decision.TokenAccounting
import FuturesBot.Decision.TokenBudget
import FuturesBot.Exchange.Adapter
import FuturesBot.Exchange.Apart
import FuturesBot.Exchange.Atomicity
import FuturesBot.Exchange.BingX
import FuturesBot.Exchange.BusinessErrors
import FuturesBot.Exchange.Conservation
import FuturesBot.Exchange.Exposed
import FuturesBot.Exchange.Lookup
import FuturesBot.Exchange.Margin
import FuturesBot.Exchange.Paper
import FuturesBot.Exchange.PaperRuns
import FuturesBot.Exchange.Placing
import FuturesBot.Exchange.ReduceOnly
import FuturesBot.Exchange.Requests
import FuturesBot.Exchange.Schemas
import FuturesBot.Positions.Bookkeeping
import FuturesBot.Positions.CloseOnly
import FuturesBot.Positions.Closing
import FuturesBot.Positions.ConfigMapper
import FuturesBot.Positions.Desk
import FuturesBot.Positions.DeskLocality
import FuturesBot.Positions.Exits
import FuturesBot.Positions.Independence
import FuturesBot.Positions.Ledger
import FuturesBot.Positions.Locality
import FuturesBot.Positions.Manager
import FuturesBot.Positions.PlannedExits
import FuturesBot.Positions.Protection
import FuturesBot.Positions.Registered
import FuturesBot.Positions.Schemas
import FuturesBot.Positions.StopRuns
import FuturesBot.Positions.Tick
import FuturesBot.Positions.TickService
import FuturesBot.Positions.Trailing
import FuturesBot.Positions.TrailingRuns
import FuturesBot.Risk.Checks
import FuturesBot.Risk.Engine
import FuturesBot.Risk.Estimates
import FuturesBot.Risk.FeeLaws
import FuturesBot.Risk.Liquidation
import FuturesBot.Risk.Monotone
import FuturesBot.Risk.Soundness
import FuturesBot.Risk.Totality
import FuturesBot.Storage.Session
import FuturesBot.Execution.ApprovedMargin
import FuturesBot.Execution.ChargedFees
import FuturesBot.Execution.Engine
import FuturesBot.Execution.Exposure
import FuturesBot.Execution.FillEstimates
import FuturesBot.Execution.Identity
import FuturesBot.Execution.Retries
import FuturesBot.Market.CycleService
import FuturesBot.Market.Snapshot
import FuturesBot.Market.Validators
import FuturesBot.Signals.AnalysisService
import FuturesBot.Signals.Candles
import FuturesBot.Signals.Leverage
import FuturesBot.Signals.Mirror
import FuturesBot.Signals.Package
import FuturesBot.Signals.QuantSignals
import FuturesBot.Signals.Regime
import FuturesBot.Signals.Sweeps
import FuturesBot.Signals.Verdict
import FuturesBot.Signals.Volatility
import FuturesBot.Reconciliation.Engine
import FuturesBot.Reconciliation.Executed
import FuturesBot.Reconciliation.Gate
import FuturesBot.Reconciliation.Orders
import FuturesBot.Trading.AuditRuns
import FuturesBot.Trading.AuditTrail
import FuturesBot.Trading.Averaging
import FuturesBot.Trading.Coverage
import FuturesBot.Trading.Cycle
import FuturesBot.Trading.Entries
import FuturesBot.Trading.FailClosed
import FuturesBot.Trading.Isolation
import FuturesBot.Trading.LimitCoverage
import FuturesBot.Trading.Loop
import FuturesBot.Trading.LossLimits
import FuturesBot.Trading.Movements
import FuturesBot.Trading.OpenLimit
import FuturesBot.Trading.OwnSymbol
import FuturesBot.Trading.Pipeline
import FuturesBot.Trading.Trades
import FuturesBot.Trading.Turns
import FuturesBot.Backtesting.Amounts
import FuturesBot.Backtesting.Causality
import FuturesBot.Backtesting.Engine
import FuturesBot.Backtesting.ExitPrices
import FuturesBot.Backtesting.Isolation
import FuturesBot.Backtesting.Journal
import FuturesBot.Backtesting.Metrics
import FuturesBot.Backtesting.PendingClose
import FuturesBot.Backtesting.Phantoms
import FuturesBot.Backtesting.Schemas
import FuturesBot.Backtesting.Slippage
import FuturesBot.Backtesting.Splits
import FuturesBot.Backtesting.Timeline
import FuturesBot.Backtesting.Validation
import FuturesBot.Replay.Comparison
import FuturesBot.Replay.DailyLoss
import FuturesBot.Replay.Drawdowns
import FuturesBot.Replay.Engine
import FuturesBot.Replay.LiveAgreement
import FuturesBot.Replay.Metrics
import FuturesBot.Replay.Nearest
import FuturesBot.Replay.RoundTrip
import FuturesBot.Replay.Unchanged
