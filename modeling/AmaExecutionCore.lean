import AmaExecutionCore.System
import AmaExecutionCore.Runs
import AmaExecutionCore.Submission
import AmaExecutionCore.Moves
import AmaExecutionCore.EntryRecord
import AmaExecutionCore.Protection
import AmaExecutionCore.ExitRecord
import AmaExecutionCore.ExitOrders
import AmaExecutionCore.Submissions
import AmaExecutionCore.Replay
import AmaExecutionCore.Exposure
import AmaExecutionCore.Columns
import AmaExecutionCore.Requests
import AmaExecutionCore.RequestRuns
import AmaExecutionCore.OpenLimit
import AmaExecutionCore.RequestBook
import AmaExecutionCore.Deduplication
import AmaExecutionCore.Lifecycle
import AmaExecutionCore.Atomic
import AmaExecutionCore.Outcomes
import AmaExecutionCore.Passes
import AmaExecutionCore.Inventory
import AmaExecutionCore.Resolvers
import AmaExecutionCore.Entries
import AmaExecutionCore.Holdings
import AmaExecutionCore.Likeness
import AmaExecutionCore.Topics
import AmaExecutionCore.Deliveries
import AmaExecutionCore.Settlements
import AmaExecutionCore.DaySessions
import AmaExecutionCore.Convergence
import AmaExecutionCore.Reports
import AmaExecutionCore.SafetyRuns
import AmaExecutionCore.LossStreaks
import AmaExecutionCore.DayAccounts
import AmaExecutionCore.CreationDates
import AmaExecutionCore.DailyCap
import AmaExecutionCore.Activations
import AmaExecutionCore.Halts
import AmaExecutionCore.Grid
import AmaExecutionCore.GridRuns
import AmaExecutionCore.GridSlots
import AmaExecutionCore.GridInventory
import AmaExecutionCore.GridStarts
import AmaExecutionCore.GridFills
import AmaExecutionCore.GridDeliveries
import AmaExecutionCore.GridCommits
import AmaExecutionCore.Armings
import AmaExecutionCore.TradeTasks
import AmaExecutionCore.SerialTasks
import AmaExecutionCore.CloseTurns
import AmaExecutionCore.GridHalts
import AmaExecutionCore.GridBacktester
import AmaExecutionCore.GridStops
import AmaExecutionCore.GridRefinement
import AmaExecutionCore.FullFills
import AmaExecutionCore.MarketData
import AmaExecutionCore.ReplayRunner
import AmaExecutionCore.ReplayRuns
import AmaExecutionCore.ReplayBooks
import AmaExecutionCore.ReplayBreaker
import AmaExecutionCore.ReplayRules
import AmaExecutionCore.ReplayDailyCap
import AmaExecutionCore.CandleFeed
import AmaExecutionCore.CandleWindows
import AmaExecutionCore.Simulation
import AmaExecutionCore.SimulationExits
import AmaExecutionCore.NoLookahead
import AmaExecutionCore.GateManifest
import AmaExecutionCore.BacktestGate
import AmaExecutionCore.GateSoundness
import AmaExecutionCore.Indicators
import AmaExecutionCore.TrendStrategies
import AmaExecutionCore.ReversionStrategies
import AmaExecutionCore.IndicatorFacts
import AmaExecutionCore.SignalGeometry
import AmaExecutionCore.StrategyFactory
import AmaExecutionCore.EntryGeometry
import AmaExecutionCore.PositionSizing
import AmaExecutionCore.GridRisk
import AmaExecutionCore.GridAccounts
import AmaExecutionCore.GridMetrics
import AmaExecutionCore.GridOrders
import AmaExecutionCore.FirstTouch
import AmaExecutionCore.GridAdvisor
import AmaExecutionCore.TradePrices
import AmaExecutionCore.ExitReasons
import AmaExecutionCore.TradingCosts
import AmaExecutionCore.BacktestMetrics
import AmaExecutionCore.MetricsAccounts
import AmaExecutionCore.DivergenceWindows
import AmaExecutionCore.IndicatorRanges
import AmaExecutionCore.Paginators
import AmaExecutionCore.Binary64
import AmaExecutionCore.Decimals
import AmaExecutionCore.ShortestDecimals
import AmaExecutionCore.JsonKeys
import AmaExecutionCore.SignalFingerprint
import AmaExecutionCore.AdminAuth
import AmaExecutionCore.LogoutRevocation
import AmaExecutionCore.SignalLoop
import AmaExecutionCore.SignalLoopRuns
import AmaExecutionCore.CandleClock
import AmaExecutionCore.WebSocketRunner
import AmaExecutionCore.WebSocketRuns
import AmaExecutionCore.AdminRouter
import AmaExecutionCore.TotpThrottle
import AmaExecutionCore.LoginThrottle
import AmaExecutionCore.TwoFactors
import AmaExecutionCore.LogStream
import AmaExecutionCore.SpotExitMonitor
import AmaExecutionCore.SpotExitRuns
