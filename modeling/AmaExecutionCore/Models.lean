import Mathlib.Algebra.Order.Field.Rat

/-! The rows of the trade journal. Decimal columns are exact rationals, two of them
(`risk_amount_usd`, `filled_qty`) as PostgreSQL rounds them; a timestamp counts microseconds,
and a column no modelled function reads (`mae`, `mfe`, the equity columns of a day) is left
out. -/
namespace AmaExecutionCore

abbrev Timestamp := Int
abbrev Date := Int
abbrev SignalId := Nat
abbrev TradeId := Nat

/-- The UTC calendar day of a timestamp. -/
def Timestamp.date (t : Timestamp) : Date := t / 86400000000

/-- What a `Numeric(18, 8)` column keeps of a value: eight decimals, ties away from zero. -/
def storedAmount (q : Rat) : Rat :=
  let units : Rat := (|q| * 100000000 + 1 / 2).floor / 100000000
  if q < 0 then -units else units

theorem storedAmount_nonneg {q : Rat} (h : 0 ≤ q) : 0 ≤ storedAmount q := by
  have hunits : 0 ≤ (|q| * 100000000 + 1 / 2).floor := by
    rw [Rat.le_floor_iff]
    exact add_nonneg (mul_nonneg (abs_nonneg q) (by decide +kernel)) (by decide +kernel)
  simp only [storedAmount, if_neg (not_lt.mpr h)]
  exact div_nonneg (Rat.intCast_nonneg.mpr hunits) (by decide +kernel)

inductive SignalDirection where
  | long | short
  deriving DecidableEq, Repr

inductive ExchangeSide where
  | buy | sell
  deriving DecidableEq, Repr

inductive MarketType where
  | spot | spotMargin | linear
  deriving DecidableEq, Repr

inductive TradingMode where
  | shadow | demo | real
  deriving DecidableEq, Repr

inductive ExitReason where
  | tpHit | slHit | manual | killSwitch
  deriving DecidableEq, Repr

inductive TradeStatus where
  | signalGenerated | riskCalculated | safetyChecked
  | orderSubmitted | orderPendingUnknown | orderConfirmed
  | orderRejected | orderCancelled | orderPartiallyFilled
  | positionOpen | positionClosePending | positionClosed | positionCloseFailed
  | pnlRecorded
  deriving DecidableEq, Repr

inductive SystemEventType where
  | killSwitch | circuitBreaker | cooldown | error
  deriving DecidableEq, Repr

inductive PauseReason where
  | dailyLoss | weeklyLoss | cooldown | hardLossStreak
  deriving DecidableEq, Repr

inductive OrderType where
  | market | limit
  deriving DecidableEq, Repr

/-- Client order ids. `generated` is `generate_order_link_id`, the three prefixed
forms are built where the order is sent; the number stands for the fresh part. -/
inductive OrderLinkId where
  | generated (signal : Option SignalId) (nonce : Nat)
  | close (nonce : Nat)
  | stop (nonce : Nat)
  | tp (nonce : Nat)
  | foreign (text : String)
  deriving DecidableEq, Repr

structure Trade where
  id : TradeId
  signalId : Option SignalId := none
  orderLinkId : Option OrderLinkId := none
  exchangeOrderId : Option String := none
  closeOrderLinkId : Option OrderLinkId := none
  closeExchangeOrderId : Option String := none
  stopOrderLinkId : Option OrderLinkId := none
  stopExchangeOrderId : Option String := none
  takeProfitOrderLinkId : Option OrderLinkId := none
  takeProfitExchangeOrderId : Option String := none
  symbol : String
  signalDirection : SignalDirection
  exchangeSide : ExchangeSide
  marketType : MarketType
  mode : TradingMode
  equityAtEntry : Option Rat := none
  riskAmountUsd : Option Rat := none
  riskPct : Option Rat := none
  entryPrice : Option Rat := none
  stopPrice : Option Rat := none
  targetPrice : Option Rat := none
  expectedRrr : Option Rat := none
  qty : Option Rat := none
  orderType : Option OrderType := none
  isPostOnly : Bool := false
  avgFillPrice : Option Rat := none
  filledQty : Option Rat := none
  feePaid : Option Rat := none
  slippage : Option Rat := none
  avgExitPrice : Option Rat := none
  status : TradeStatus := .signalGenerated
  exitReason : Option ExitReason := none
  realizedPnl : Option Rat := none
  pnlPct : Option Rat := none
  pnlInR : Option Rat := none
  holdTimeSeconds : Option Int := none
  openedAt : Option Timestamp := none
  closedAt : Option Timestamp := none
  createdAt : Timestamp
  deriving DecidableEq, Repr

inductive TradeEventType where
  | tradeCreated | statusTransition
  deriving DecidableEq, Repr

structure TradeEvent where
  tradeId : TradeId
  eventType : TradeEventType
  fromStatus : Option TradeStatus
  toStatus : Option TradeStatus
  metadata : List (String × String)
  deriving DecidableEq, Repr

structure SymbolStats where
  wins : Nat := 0
  losses : Nat := 0
  consecutiveLosses : Nat := 0
  deriving DecidableEq, Repr

structure DailyStat where
  statDate : Date
  totalTrades : Nat := 0
  winningTrades : Nat := 0
  losingTrades : Nat := 0
  consecutiveLosses : Nat := 0
  grossPnl : Option Rat := none
  totalFees : Option Rat := none
  netPnl : Option Rat := none
  dailyLossPct : Option Rat := none
  symbolStats : List (String × SymbolStats) := []
  circuitBreakerTriggered : Bool := false
  deriving DecidableEq, Repr

structure SystemEvent where
  eventType : SystemEventType
  description : String
  tradeId : Option TradeId := none
  deriving DecidableEq, Repr

/-- The singleton safety row; a missing row reads as the defaults it is created with. -/
structure SafetyState where
  killSwitchActive : Bool := false
  pauseReason : Option PauseReason := none
  cooldownUntil : Option Timestamp := none
  manualResetRequired : Bool := false
  lastTriggeredAt : Option Timestamp := none
  deriving DecidableEq, Repr

structure Signal where
  id : SignalId
  symbol : String
  signalDirection : SignalDirection
  reason : Option String
  strategyVersion : Option String
  indicatorsSnapshot : Option String
  deriving DecidableEq, Repr

structure SignalSubmission where
  fingerprint : String
  signalId : Option SignalId := none
  tradeId : Option TradeId := none
  deriving DecidableEq, Repr

/-- The rows that are not owned by one trade or one signal. -/
structure Ledger where
  dailyStats : List DailyStat := []
  safety : SafetyState := {}
  systemEvents : List SystemEvent := []
  deriving DecidableEq, Repr

/-- Rows stand in insertion order, which is the order of `created_at`. -/
structure Db where
  signals : List Signal := []
  submissions : List SignalSubmission := []
  trades : List Trade := []
  tradeEvents : List TradeEvent := []
  ledger : Ledger := {}
  deriving DecidableEq, Repr

inductive OrderMode where
  | makerPreferred | takerAllowed | makerOnly
  deriving DecidableEq, Repr

/-- The settings the execution path reads; floats are exact. -/
structure Settings where
  tradingMode : TradingMode := .shadow
  orderMode : OrderMode := .makerPreferred
  shadowEquity : Rat := 10000
  riskPerTradePct : Rat := 1 / 100
  canaryMode : Bool := false
  canaryRiskMultiplier : Rat := 1 / 4
  minRrr : Rat := 2
  maxOpenPositions : Nat := 1
  maxTotalRiskExposurePct : Rat := 3 / 100
  maxTradesPerDay : Nat := 10
  maxDailyLossPct : Rat := 3 / 100
  maxWeeklyLossPct : Rat := 5 / 100
  maxConsecutiveLosses : Nat := 3
  hardPauseConsecutiveLosses : Nat := 5
  cooldownHours : Int := 4

/-- Python's `a or b` on optional decimals: zero counts as absent. -/
def pyOr (a b : Option Rat) : Option Rat :=
  match a with
  | some q => if q = 0 then b else a
  | none => b

/-- The exceptions that cross a function boundary of the modelled code. -/
inductive PyError where
  | bybitApiError (retMsg : String)
  | bybitConnectionError
  | timeoutError
  | killSwitchActiveError
  | dailyLossLimitError
  | weeklyLossLimitError
  | cooldownActiveError
  | hardLossStreakPauseError
  | orderAlreadySubmittedError
  | riskManagerError (text : String)
  | zeroRiskDistanceError
  | invalidRiskInputError
  | belowMinQtyError
  | belowMinNotionalError
  | insufficientSpotBalanceError
  | invalidOperation
  | keyError
  | valueError (text : String)
  | multipleResultsFound
  | integrityError
  | runtimeError
  | otherError
  deriving DecidableEq, Repr

end AmaExecutionCore
