import AmaExecutionCore.DecimalContext
import AmaExecutionCore.ReplayRunner

/-! `SimulationExecutionService`: an entry of a replay, simulated over the candles to come. The
random numbers of the service are a function `random` of a hidden state, and its decimals are added
and multiplied in a context, which for the program is `pythonContext`. -/
namespace AmaExecutionCore

inductive MarketMode where
  | spot
  | derivatives
  deriving DecidableEq, Repr

inductive ExecutionSide where
  | buy
  | sell
  deriving DecidableEq, Repr

structure SimulationExecutionResult where
  realizedPnl : Rat
  feesPaid : Rat
  slippage : Rat
  exitReason : String
  holdCandles : Int
  qty : Rat := 0
  closedAtStep : Int := 0
  entryPrice : Rat := 0
  exitPrice : Rat := 0
  status : String := "closed"
  rejectedShortSignal : Bool := false
  skippedMinNotional : Bool := false
  skippedInsufficientCapital : Bool := false
  ambiguousCandle : Bool := false
  deriving DecidableEq, Repr

instance : ExecutionMetrics SimulationExecutionResult where
  status result := some result.status
  closedAtStep result := .ok (some result.closedAtStep)
  holdCandles result := .ok (some result.holdCandles)
  realizedPnl result := .ok (some result.realizedPnl)
  feesPaid result := .ok (some result.feesPaid)
  entryPrice result := .ok (some result.entryPrice)

structure PreparedExecution where
  rawEntryPrice : Rat
  entryPrice : Rat
  entryFeeRate : Rat
  stop : Rat
  target : Rat
  qty : Rat
  deriving DecidableEq, Repr

def PreparedExecution.stopHit (prepared : PreparedExecution) (direction : SignalDirection)
    (candle : MarketCandle Rat) : Bool :=
  if direction = .long then candle.low ≤ prepared.stop else candle.high ≥ prepared.stop

def PreparedExecution.targetHit (prepared : PreparedExecution) (direction : SignalDirection)
    (candle : MarketCandle Rat) : Bool :=
  if direction = .long then candle.high ≥ prepared.target else candle.low ≤ prepared.target

structure SimulationOptions where
  maxHoldCandles : Int := 20
  riskAmountUsd : Rat := 100
  feeRatePerSide : Option Rat := none
  legacyFeeShortcut : Bool := false
  makerFeeRate : Rat := 1 / 1000
  takerFeeRate : Rat := 25 / 10000
  makerFillProbability : Rat := 7 / 10
  spreadBps : Rat := 2
  slippageBps : Rat := 1
  oneBarExecutionDelay : Bool := true
  marketMode : String := "spot"
  virtualEquityUsd : Rat := 10000
  minNotionalBySymbol : List (String × Rat) := []
  defaultMinNotional : Rat := 5

/-- Python's default context, which the program leaves as it is. -/
def pythonContext : DecimalContext := .digits 28 (by decide)

structure SimulationExecutionService where
  decimals : DecimalContext
  maxHoldCandles : Int
  riskAmount : Rat
  marketMode : MarketMode
  virtualEquity : Rat
  defaultMinNotional : Rat
  minNotionalBySymbol : String → Option Rat
  makerFeeRate : Rat
  takerFeeRate : Rat
  makerFillProbability : Rat
  spreadBps : Rat
  slippageBps : Rat
  oneBarExecutionDelay : Bool

def defaultSpotMinNotionals (symbol : String) : Option Rat :=
  if symbol ∈ ["BTCUSDT", "ETHUSDT", "SOLUSDT", "XRPUSDT"] then some 5 else none

namespace SimulationExecutionService

/-- `__init__`. -/
def create (decimals : DecimalContext) (options : SimulationOptions) :
    Except PyError SimulationExecutionService :=
  let build (marketMode : MarketMode) : SimulationExecutionService :=
    let service : SimulationExecutionService := {
      decimals := decimals
      maxHoldCandles := options.maxHoldCandles
      riskAmount := options.riskAmountUsd
      marketMode := marketMode
      virtualEquity := options.virtualEquityUsd
      defaultMinNotional := options.defaultMinNotional
      minNotionalBySymbol := options.minNotionalBySymbol.foldl
        (fun notionals entry => Function.update notionals (symbolKey entry.1) (some entry.2))
        defaultSpotMinNotionals
      makerFeeRate := options.feeRatePerSide.getD options.makerFeeRate
      takerFeeRate := options.feeRatePerSide.getD options.takerFeeRate
      makerFillProbability := options.makerFillProbability
      spreadBps := options.spreadBps
      slippageBps := options.slippageBps
      oneBarExecutionDelay := options.oneBarExecutionDelay }
    if options.feeRatePerSide.isSome ∧ options.legacyFeeShortcut then
      { service with makerFillProbability := 1, spreadBps := 0, slippageBps := 0
                     oneBarExecutionDelay := false }
    else service
  match options.marketMode with
  | "spot" => .ok (build .spot)
  | "derivatives" => .ok (build .derivatives)
  | mode => .error (.valueError ("Unsupported market_mode: " ++ mode))

variable (service : SimulationExecutionService)

def resolveEntryPrice (signal : ExecuteSignalRequest Rat) (first : MarketCandle Rat) : Rat :=
  if service.oneBarExecutionDelay then first.openPrice else signal.entry

def calculateFees (entryPrice exitPrice qty entryFeeRate exitFeeRate : Rat) : Rat :=
  let decimals := service.decimals
  if qty ≤ 0 then 0
  else decimals.add (decimals.mul (decimals.mul entryPrice qty) entryFeeRate)
    (decimals.mul (decimals.mul exitPrice qty) exitFeeRate)

def calculateRealizedPnl (direction : SignalDirection) (entryPrice exitPrice qty : Rat) : Rat :=
  if qty ≤ 0 then 0
  else if direction = .long then
    service.decimals.mul (service.decimals.sub exitPrice entryPrice) qty
  else service.decimals.mul (service.decimals.sub entryPrice exitPrice) qty

def buildResult (signal : ExecuteSignalRequest Rat) (prepared : PreparedExecution)
    (rawExitPrice exitPrice exitFeeRate : Rat) (exitReason : String)
    (holdCandles closedAtStep : Int) (ambiguousCandle : Bool) : SimulationExecutionResult where
  realizedPnl :=
    service.calculateRealizedPnl signal.direction prepared.entryPrice exitPrice prepared.qty
  feesPaid :=
    service.calculateFees prepared.entryPrice exitPrice prepared.qty prepared.entryFeeRate
      exitFeeRate
  slippage :=
    let decimals := service.decimals
    decimals.add (decimals.abs (decimals.sub prepared.entryPrice prepared.rawEntryPrice))
      (decimals.abs (decimals.sub exitPrice rawExitPrice))
  qty := prepared.qty
  exitReason := exitReason
  holdCandles := holdCandles
  closedAtStep := closedAtStep
  entryPrice := prepared.entryPrice
  exitPrice := exitPrice
  ambiguousCandle := ambiguousCandle

/-- `_build_skipped_result`, before its flags are set. -/
def buildSkippedResult (signalEntry : Rat) (step : Int) (exitReason : String) :
    SimulationExecutionResult where
  realizedPnl := 0
  feesPaid := 0
  slippage := 0
  exitReason := exitReason
  holdCandles := 0
  closedAtStep := step
  entryPrice := signalEntry
  exitPrice := signalEntry
  status := "skipped"

/-- A trade without candles, or without a quantity. -/
def emptyResult (price : Rat) (step : Int) : SimulationExecutionResult where
  realizedPnl := 0
  feesPaid := 0
  slippage := 0
  exitReason := "timeout"
  holdCandles := 0
  closedAtStep := step
  entryPrice := price
  exitPrice := price

def maybeSkipSpotShort (signal : ExecuteSignalRequest Rat) (step : Int) :
    Option SimulationExecutionResult :=
  if service.marketMode ≠ .spot ∨ signal.direction ≠ .short then none
  else some { buildSkippedResult signal.entry step "rejected_short_signal" with
    rejectedShortSignal := true }

def resolveMinNotional (symbol : String) : Rat :=
  (service.minNotionalBySymbol (symbolKey symbol)).getD service.defaultMinNotional

def maybeSkipSpotConstraints (signal : ExecuteSignalRequest Rat) (step : Int)
    (entryPrice qty : Rat) : Option SimulationExecutionResult :=
  let entryNotional := service.decimals.mul entryPrice qty
  if service.marketMode ≠ .spot then none
  else if entryNotional < service.resolveMinNotional signal.symbol then
    some { buildSkippedResult entryPrice step "min_notional" with skippedMinNotional := true }
  else if entryNotional > service.virtualEquity then
    some { buildSkippedResult entryPrice step "insufficient_capital" with
      skippedInsufficientCapital := true }
  else none

def applySpread (price : Rat) (side : ExecutionSide) (bps : Rat) : Rat :=
  let move := service.decimals.div (service.decimals.mul price bps) 10000
  if side = .buy then service.decimals.add price move else service.decimals.sub price move

def entrySide (direction : SignalDirection) : ExecutionSide :=
  if direction = .long then .buy else .sell

def exitSide (direction : SignalDirection) : ExecutionSide :=
  if direction = .long then .sell else .buy

def applySlippage (price : Rat) (direction : SignalDirection) : Rat :=
  let move := service.decimals.div (service.decimals.mul price service.slippageBps) 10000
  if direction = .long then service.decimals.sub price move else service.decimals.add price move

def resolveStopExitPrice (stop candleOpen : Rat) (direction : SignalDirection) : Rat :=
  if direction = .long ∧ candleOpen < stop then candleOpen
  else if direction = .short ∧ candleOpen > stop then candleOpen
  else stop

def buildStopResult (signal : ExecuteSignalRequest Rat) (candleOpen : Rat)
    (holdCandles closedAtStep : Int) (prepared : PreparedExecution) (ambiguousCandle : Bool) :
    SimulationExecutionResult :=
  let rawExitPrice := resolveStopExitPrice prepared.stop candleOpen signal.direction
  service.buildResult signal prepared rawExitPrice
    (service.applySlippage rawExitPrice signal.direction) service.takerFeeRate "sl_hit" holdCandles
    closedAtStep ambiguousCandle

/-- `candles[index]`, where a negative index counts from the end. -/
def candleAt (candles : List (MarketCandle Rat)) (index : Int) : Option (MarketCandle Rat) :=
  let position := if 0 ≤ index then index else candles.length + index
  if 0 ≤ position then candles[position.toNat]? else none

def buildTimeoutResult (signal : ExecuteSignalRequest Rat) (futureCandles : List (MarketCandle Rat))
    (step : Int) (prepared : PreparedExecution) : Except PyError SimulationExecutionResult :=
  let timeoutHoldCandles := min service.maxHoldCandles futureCandles.length
  match candleAt futureCandles (timeoutHoldCandles - 1) with
  | none => .error .otherError
  | some candle =>
    .ok (service.buildResult signal prepared candle.close
      (service.applySlippage candle.close signal.direction) service.takerFeeRate "timeout"
      timeoutHoldCandles (step + timeoutHoldCandles) false)

section
variable {ρ : Type} (random : ρ → Rat × ρ)

def makerFill (rng : ρ) : Bool × ρ :=
  if service.makerFillProbability ≤ 0 then (false, rng)
  else if service.makerFillProbability ≥ 1 then (true, rng)
  else
    let (x, rng) := random rng
    (x < service.makerFillProbability, rng)

/-- The fee rate and the part of the spread of an order that fills as a maker or a taker. -/
def fillTerms (isMaker : Bool) : Rat × Rat :=
  if isMaker then (service.makerFeeRate, 0)
  else (service.takerFeeRate, service.decimals.div service.spreadBps 2)

def prepareExecution (signal : ExecuteSignalRequest Rat) (first : MarketCandle Rat) (step : Int)
    (rng : ρ) : (PreparedExecution ⊕ SimulationExecutionResult) × ρ :=
  let rawEntryPrice := service.resolveEntryPrice signal first
  let (isMaker, rng) := service.makerFill random rng
  let (entryFeeRate, bps) := service.fillTerms isMaker
  let entryPrice := service.applySpread rawEntryPrice (entrySide signal.direction) bps
  let risk := service.decimals.abs (service.decimals.sub entryPrice signal.stop)
  let qty := if risk ≠ 0 then service.decimals.div service.riskAmount risk else 0
  if qty ≤ 0 then (.inr (emptyResult entryPrice step), rng)
  else
    match service.maybeSkipSpotConstraints signal step entryPrice qty with
    | some skipped => (.inr skipped, rng)
    | none =>
      (.inl ⟨rawEntryPrice, entryPrice, entryFeeRate, signal.stop, signal.target, qty⟩, rng)

def buildTargetResult (signal : ExecuteSignalRequest Rat) (holdCandles closedAtStep : Int)
    (prepared : PreparedExecution) (rng : ρ) : SimulationExecutionResult × ρ :=
  let (isMaker, rng) := service.makerFill random rng
  let (exitFeeRate, bps) := service.fillTerms isMaker
  (service.buildResult signal prepared prepared.target
    (service.applySpread prepared.target (exitSide signal.direction) bps) exitFeeRate "tp_hit"
    holdCandles closedAtStep false, rng)

def evaluateCandleExit (signal : ExecuteSignalRequest Rat) (candle : MarketCandle Rat) (index : Nat)
    (step : Int) (prepared : PreparedExecution) (rng : ρ) :
    Option (SimulationExecutionResult × ρ) :=
  let holdCandles : Int := index + 1
  let closedAtStep := step + holdCandles
  let stopHit := prepared.stopHit signal.direction candle
  let targetHit := prepared.targetHit signal.direction candle
  if !stopHit && !targetHit then none
  else if stopHit then
    some (service.buildStopResult signal candle.openPrice holdCandles closedAtStep prepared
      targetHit, rng)
  else some (service.buildTargetResult random signal holdCandles closedAtStep prepared rng)

/-- The loop of `execute_replay_signal`. -/
def firstExit (signal : ExecuteSignalRequest Rat) (step : Int) (prepared : PreparedExecution)
    (rng : ρ) : Nat → List (MarketCandle Rat) → Option (SimulationExecutionResult × ρ)
  | _, [] => none
  | index, candle :: candles =>
    match service.evaluateCandleExit random signal candle index step prepared rng with
    | some exit => some exit
    | none => firstExit signal step prepared rng (index + 1) candles

/-- `candles[:count]`. -/
def takeSlice (count : Int) (candles : List (MarketCandle Rat)) : List (MarketCandle Rat) :=
  if 0 ≤ count then candles.take count.toNat else candles.take (candles.length + count).toNat

/-- The exit of a prepared execution, or its timeout. -/
def exitOf (signal : ExecuteSignalRequest Rat) (futureCandles : List (MarketCandle Rat)) (step : Int)
    (prepared : PreparedExecution) (rng : ρ) : Except PyError SimulationExecutionResult × ρ :=
  match service.firstExit random signal step prepared rng 0
      (takeSlice service.maxHoldCandles futureCandles) with
  | some (result, rng) => (.ok result, rng)
  | none => (service.buildTimeoutResult signal futureCandles step prepared, rng)

def executeReplaySignal (signal : ExecuteSignalRequest Rat) (futureCandles : List (MarketCandle Rat))
    (step : Int) (rng : ρ) : Except PyError SimulationExecutionResult × ρ :=
  match service.maybeSkipSpotShort signal step with
  | some skipped => (.ok skipped, rng)
  | none =>
    match futureCandles with
    | [] => (.ok (emptyResult signal.entry step), rng)
    | first :: _ =>
      match service.prepareExecution random signal first step rng with
      | (.inr result, rng) => (.ok result, rng)
      | (.inl prepared, rng) => service.exitOf random signal futureCandles step prepared rng

/-- A strategy without a state, and the simulated executions. -/
def services (requiredCandleCount : Nat)
    (strategy : MarketSnapshot Rat → Except PyError (Option (StrategySignal Rat))) :
    ReplayServices SimulationExecutionResult ρ where
  requiredCandleCount := requiredCandleCount
  generateSignal snapshot rng := (strategy snapshot, rng)
  executeSignal := .inr (service.executeReplaySignal random)

end

end SimulationExecutionService

end AmaExecutionCore
