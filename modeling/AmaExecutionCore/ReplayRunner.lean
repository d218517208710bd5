import AmaExecutionCore.MarketData
import AmaExecutionCore.Runs
import AmaExecutionCore.Store

/-! `HistoricalReplayRunner`: a strategy and an execution service replayed over a history, with
the positions, cooldowns, day counts and pauses of the replay. The report is left out. -/
namespace AmaExecutionCore

structure HistoricalReplayRequest where
  symbol : String
  interval : String
  candles : Option (List (MarketCandle Rat)) := none
  snapshots : Option (List (MarketSnapshot Rat)) := none
  startStep : Option Int := none
  endStep : Option Int := none

def HistoricalReplayRequest.normalize (request : HistoricalReplayRequest) :
    Except PyError HistoricalReplayRequest :=
  let symbol := symbolKey request.symbol
  let interval := String.ofList (strip request.interval.toList)
  if symbol = "" then .error (.valueError "Replay symbol must not be empty.")
  else if interval = "" then .error (.valueError "Replay interval must not be empty.")
  else if request.candles.isNone = request.snapshots.isNone then
    .error (.valueError "Replay request must provide exactly one of candles or snapshots.")
  else if request.startStep.any (· < 0) then
    .error (.valueError "Replay start_step must be greater than or equal to zero.")
  else if request.endStep.any (· < 0) then
    .error (.valueError "Replay end_step must be greater than or equal to zero.")
  else .ok { request with symbol := symbol, interval := interval }

/-- `range(startStep, endStep)`. -/
def stepRange (startStep endStep : Int) : List Int :=
  (List.range (endStep - startStep).toNat).map fun i : Nat => startStep + i

def buildSnapshotReplaySteps (request : HistoricalReplayRequest)
    (snapshots : List (MarketSnapshot Rat)) : Except PyError (List (Int × MarketSnapshot Rat)) :=
  let startStep := request.startStep.getD 0
  let endStep := request.endStep.getD snapshots.length
  if endStep < startStep then
    .error (.valueError "Replay end_step must be greater than or equal to start_step.")
  else if endStep > snapshots.length then
    .error (.valueError "Replay end_step exceeds available snapshots.")
  else .ok ((stepRange startStep endStep).filterMap fun step =>
    snapshots[step.toNat]?.map fun snapshot => (step, snapshot))

/-- The snapshot that ends with the candle of `step`. -/
def candleWindow (request : HistoricalReplayRequest) (candles : List (MarketCandle Rat))
    (requiredCandleCount : Nat) (step : Int) : MarketSnapshot Rat where
  symbol := request.symbol
  interval := request.interval
  candles := (candles.take (step + 1).toNat).drop (step - requiredCandleCount + 1).toNat

def buildCandleReplaySteps (request : HistoricalReplayRequest) (candles : List (MarketCandle Rat))
    (requiredCandleCount : Nat) : Except PyError (List (Int × MarketSnapshot Rat)) :=
  let minimumStep : Int := requiredCandleCount - 1
  let startStep := request.startStep.getD minimumStep
  let endStep := request.endStep.getD candles.length
  if candles.length < requiredCandleCount then
    .error (.valueError "Replay candles do not satisfy the strategy candle requirement.")
  else if startStep < minimumStep then
    .error (.valueError "Replay start_step is earlier than the first valid candle window.")
  else if endStep < startStep then
    .error (.valueError "Replay end_step must be greater than or equal to start_step.")
  else if endStep > candles.length then
    .error (.valueError "Replay end_step exceeds available candles.")
  else .ok ((stepRange startStep endStep).map fun step =>
    (step, candleWindow request candles requiredCandleCount step))

def buildReplaySteps (request : HistoricalReplayRequest) (requiredCandleCount : Nat) :
    Except PyError (List (Int × MarketSnapshot Rat)) :=
  match request.snapshots, request.candles with
  | some snapshots, _ => buildSnapshotReplaySteps request snapshots
  | none, some candles => buildCandleReplaySteps request candles requiredCandleCount
  | none, none => .error .otherError

def futureCandlesForStep (request : HistoricalReplayRequest) (step : Int) :
    List (MarketCandle Rat) :=
  match request.candles with
  | none => []
  | some candles => candles.drop (step + 1).toNat

/-- What the runner reads of an execution result; reading a field may raise. -/
class ExecutionMetrics (ε : Type) where
  status : ε → Option String
  closedAtStep : ε → Except PyError (Option Int)
  holdCandles : ε → Except PyError (Option Int)
  realizedPnl : ε → Except PyError (Option Rat)
  feesPaid : ε → Except PyError (Option Rat)
  entryPrice : ε → Except PyError (Option Rat)

/-- The strategy and the execution service, with the state `σ` they keep. A service that
supports the replay context is also given the candles to come. -/
structure ReplayServices (ε σ : Type) where
  requiredCandleCount : Nat
  generateSignal : MarketSnapshot Rat → σ → Except PyError (Option (StrategySignal Rat)) × σ
  executeSignal : (ExecuteSignalRequest Rat → σ → Except PyError ε × σ) ⊕
    (ExecuteSignalRequest Rat → List (MarketCandle Rat) → Int → σ → Except PyError ε × σ)

structure HistoricalReplayRunner where
  maxOpenPositions : Int := 1
  maxTradesPerDay : Int := 10
  cooldownCandles : Int := 2
  hardPauseConsecutiveLosses : Int := 5

structure HistoricalReplayStep (ε : Type) where
  stepIndex : Int
  snapshot : MarketSnapshot Rat
  signal : Option (StrategySignal Rat)
  execution : Option ε

structure ReplayOpenPosition where
  symbol : String
  direction : String
  entryPrice : Rat
  stopPrice : Rat
  targetPrice : Rat
  openedAtStep : Int
  plannedCloseStep : Int
  deriving DecidableEq, Repr

/-- `openedAtStep` is not a field of the source; it says which trade the closure ends. -/
structure ReplayScheduledClosure where
  symbol : String
  openedAtStep : Int
  closeStep : Int
  entryDate : Date
  netTradePnl : Option Rat
  deriving DecidableEq, Repr

structure ReplayPortfolioState where
  openPositions : List ReplayOpenPosition := []
  cooldownUntil : String → Option Int := fun _ => none
  dailyTrades : Date → Int := fun _ => 0
  consecutiveLosses : Int := 0
  sessionHalted : Bool := false
  currentDate : Option Date := none

/-- The loop of `replay`. An exception ends the replay, and what its step did to these
variables is lost. `recorded` logs the closures that were recorded, with the step; the source
keeps no such log. -/
structure ReplayLoop (ε σ : Type) where
  portfolio : ReplayPortfolioState := {}
  scheduledClosures : Int → List ReplayScheduledClosure := fun _ => []
  results : List (HistoricalReplayStep ε) := []
  services : σ
  raised : Option PyError := none
  recorded : List (Int × ReplayScheduledClosure) := []

namespace ReplayPortfolioState

def resetDailyCircuitBreaker (currentDate : Date) (state : ReplayPortfolioState) :
    ReplayPortfolioState :=
  if state.currentDate = some currentDate then state
  else { state with currentDate := some currentDate, consecutiveLosses := 0, sessionHalted := false }

def recordClosedTrade (runner : HistoricalReplayRunner) (state : ReplayPortfolioState)
    (closure : ReplayScheduledClosure) : ReplayPortfolioState :=
  let state := { state with
    openPositions := state.openPositions.filter fun p => p.symbol ≠ closure.symbol
    cooldownUntil := Function.update state.cooldownUntil closure.symbol
      (some (closure.closeStep + runner.cooldownCandles))
    dailyTrades := Function.update state.dailyTrades closure.entryDate
      (state.dailyTrades closure.entryDate + 1) }
  match closure.netTradePnl with
  | none => state
  | some pnl =>
    if pnl < 0 then
      { state with
        consecutiveLosses := state.consecutiveLosses + 1
        sessionHalted := state.sessionHalted ||
          decide (state.consecutiveLosses + 1 ≥ runner.hardPauseConsecutiveLosses) }
    else if pnl > 0 then { state with consecutiveLosses := 0 }
    else state

def canExecuteSignal (runner : HistoricalReplayRunner) (symbol : String) (step : Int) (date : Date)
    (state : ReplayPortfolioState) : Bool :=
  if state.sessionHalted then false
  else if state.openPositions.any fun p => p.symbol = symbol then false
  else if (state.openPositions.length : Int) ≥ runner.maxOpenPositions then false
  else if step ≤ (state.cooldownUntil symbol).getD (-1) then false
  else state.dailyTrades date < runner.maxTradesPerDay

/-- `state.open_positions[symbol] = position`. -/
def openPosition (position : ReplayOpenPosition) (state : ReplayPortfolioState) :
    ReplayPortfolioState :=
  { state with
    openPositions :=
      if state.openPositions.any fun p => p.symbol = position.symbol then
        state.openPositions.map fun p => if p.symbol = position.symbol then position else p
      else state.openPositions ++ [position] }

end ReplayPortfolioState

section
variable {ε σ : Type} [ExecutionMetrics ε]

def executionWasExecuted (execution : ε) : Bool :=
  match ExecutionMetrics.status execution with
  | some status => status ≠ "skipped"
  | none => true

def resolveCloseStep (execution : ε) (step : Int) : Except PyError Int :=
  match ExecutionMetrics.closedAtStep execution with
  | .error e => .error e
  | .ok (some explicit) => .ok explicit
  | .ok none =>
    match ExecutionMetrics.holdCandles execution with
    | .error e => .error e
    | .ok none => .ok step
    | .ok (some hold) => .ok (step + hold)

def netTradePnl (execution : ε) : Except PyError (Option Rat) :=
  match ExecutionMetrics.realizedPnl execution, ExecutionMetrics.feesPaid execution with
  | .error e, _ => .error e
  | .ok _, .error e => .error e
  | .ok none, .ok _ => .ok none
  | .ok (some realized), .ok none => .ok (some realized)
  | .ok (some realized), .ok (some fees) => .ok (some (realized - fees))

structure Tracking where
  closeStep : Int
  entryPrice : Option Rat
  netTradePnl : Option Rat

/-- What `_track_execution` reads of an execution. -/
def readTracking (step : Int) (execution : ε) : Except PyError Tracking :=
  match resolveCloseStep execution step with
  | .error e => .error e
  | .ok closeStep =>
    match ExecutionMetrics.entryPrice execution with
    | .error e => .error e
    | .ok entryPrice =>
      match netTradePnl execution with
      | .error e => .error e
      | .ok pnl => .ok ⟨closeStep, entryPrice, pnl⟩

namespace ReplayLoop

/-- A closure is recorded, and logged. -/
def record (runner : HistoricalReplayRunner) (step : Int) (closure : ReplayScheduledClosure)
    (loop : ReplayLoop ε σ) : ReplayLoop ε σ :=
  { loop with
    portfolio := loop.portfolio.recordClosedTrade runner closure
    recorded := loop.recorded ++ [(step, closure)] }

def applyScheduledClosures (runner : HistoricalReplayRunner) (step : Int)
    (loop : ReplayLoop ε σ) : ReplayLoop ε σ :=
  (loop.scheduledClosures step).foldl (fun loop closure => loop.record runner step closure)
    { loop with scheduledClosures := Function.update loop.scheduledClosures step [] }

/-- `_track_execution`, of an execution that was executed. -/
def track (runner : HistoricalReplayRunner) (signal : StrategySignal Rat) (step : Int)
    (entryDate : Date) (tracking : Tracking) (loop : ReplayLoop ε σ) : ReplayLoop ε σ :=
  let loop := { loop with portfolio := loop.portfolio.openPosition {
    symbol := signal.symbol
    direction := signal.direction
    entryPrice := (pyOr tracking.entryPrice (some signal.entry)).getD 0
    stopPrice := signal.stop
    targetPrice := signal.target
    openedAtStep := step
    plannedCloseStep := tracking.closeStep } }
  let closure : ReplayScheduledClosure :=
    ⟨signal.symbol, step, tracking.closeStep, entryDate, tracking.netTradePnl⟩
  if tracking.closeStep ≤ step then loop.record runner step closure
  else
    { loop with
      scheduledClosures := Function.update loop.scheduledClosures tracking.closeStep
        (loop.scheduledClosures tracking.closeStep ++ [closure]) }

def append (result : HistoricalReplayStep ε) (loop : ReplayLoop ε σ) : ReplayLoop ε σ :=
  { loop with results := loop.results ++ [result] }

end ReplayLoop

/-- The call of the execution service. -/
def callExecution (services : ReplayServices ε σ) (request : HistoricalReplayRequest)
    (signal : ExecuteSignalRequest Rat) (step : Int) (s : σ) : Except PyError ε × σ :=
  match services.executeSignal with
  | .inl execute => execute signal s
  | .inr execute => execute signal (futureCandlesForStep request step) step s

/-- The entry of one step, for a signal that may be executed. -/
def executeStep (runner : HistoricalReplayRunner) (services : ReplayServices ε σ)
    (request : HistoricalReplayRequest) (signal : StrategySignal Rat) (step : Int) (date : Date)
    (snapshot : MarketSnapshot Rat) (loop : ReplayLoop ε σ) (s : σ) :
    Except PyError (ReplayLoop ε σ) × σ :=
  match toExecuteSignalRequest signal with
  | .error e => (.error e, s)
  | .ok executeSignalRequest =>
    match callExecution services request executeSignalRequest step s with
    | (.error e, s) => (.error e, s)
    | (.ok execution, s) =>
      let result : HistoricalReplayStep ε := ⟨step, snapshot, some signal, some execution⟩
      if executionWasExecuted execution then
        match readTracking step execution with
        | .error e => (.error e, s)
        | .ok tracking => (.ok ((loop.track runner signal step date tracking).append result), s)
      else (.ok (loop.append result), s)

/-- What a step does before it asks the strategy. -/
def ReplayLoop.opened (runner : HistoricalReplayRunner) (step : Int) (date : Date)
    (loop : ReplayLoop ε σ) : ReplayLoop ε σ :=
  ReplayLoop.applyScheduledClosures runner step
    { loop with portfolio := loop.portfolio.resetDailyCircuitBreaker date }

/-- One step of the loop of `replay`, as far as it comes. -/
def replayStepOutcome (runner : HistoricalReplayRunner) (services : ReplayServices ε σ)
    (request : HistoricalReplayRequest) (loop : ReplayLoop ε σ) (step : Int)
    (snapshot : MarketSnapshot Rat) : Except PyError (ReplayLoop ε σ) × σ :=
  match snapshot.candles.getLast? with
  | none => (.error .otherError, loop.services)
  | some candle =>
    let loop := loop.opened runner step candle.date
    match services.generateSignal snapshot loop.services with
    | (.error e, s) => (.error e, s)
    | (.ok none, s) => (.ok (loop.append ⟨step, snapshot, none, none⟩), s)
    | (.ok (some signal), s) =>
      if loop.portfolio.canExecuteSignal runner signal.symbol step candle.date then
        executeStep runner services request signal step candle.date snapshot loop s
      else (.ok (loop.append ⟨step, snapshot, some signal, none⟩), s)

/-- One step of the loop of `replay`. -/
def replayStep (runner : HistoricalReplayRunner) (services : ReplayServices ε σ)
    (request : HistoricalReplayRequest) (loop : ReplayLoop ε σ)
    (input : Int × MarketSnapshot Rat) : ReplayLoop ε σ :=
  if loop.raised.isSome then loop
  else
    match replayStepOutcome runner services request loop input.1 input.2 with
    | (.error e, s) => { loop with services := s, raised := some e }
    | (.ok loop', s) => { loop' with services := s }

/-- The steps of a request, and the request as the loop sees it. -/
def replayInputs (services : ReplayServices ε σ) (request : HistoricalReplayRequest) :
    Except PyError (HistoricalReplayRequest × List (Int × MarketSnapshot Rat)) :=
  match request.normalize with
  | .error e => .error e
  | .ok normalized =>
    match buildReplaySteps normalized services.requiredCandleCount with
    | .error e => .error e
    | .ok steps => .ok (normalized, steps)

def replay (runner : HistoricalReplayRunner) (services : ReplayServices ε σ)
    (request : HistoricalReplayRequest) (s : σ) : ReplayLoop ε σ :=
  match replayInputs services request with
  | .error e => { services := s, raised := some e }
  | .ok (normalized, steps) =>
    Runs.run (replayStep runner services normalized) { services := s } steps

end

end AmaExecutionCore
