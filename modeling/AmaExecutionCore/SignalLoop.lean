import AmaExecutionCore.SignalRunners
import AmaExecutionCore.Runs
import Mathlib.Data.List.Dedup

/-! `SignalLoopRunner`: ticks in which every symbol is evaluated once, as many at a time as the
semaphore lets in, and the sleep until the next candle closes. -/
namespace AmaExecutionCore

structure SignalLoopRunner (K : Type) where
  strategy : BaseStrategy K
  symbols : List String
  interval : String
  cooldownSeconds : Int
  maxSymbolsConcurrent : Nat
  hasSessionFactory : Bool := true
  maxStalenessIntervals : Int := 2
  graceSeconds : Int := 15
  symbols_ne : symbols ≠ []

/-- Where the evaluation of a symbol stands in the tick under way: it waits for the semaphore,
for the row of today, for the strategy or for the order. -/
inductive EvaluationStage where
  | waiting | blacklist | strategy | execution | finished
  deriving DecidableEq, Repr

def EvaluationStage.holdsSemaphore : EvaluationStage → Bool
  | .blacklist | .strategy | .execution => true
  | .waiting | .finished => false

/-- `execute_signal` has not been called yet. -/
def EvaluationStage.isPending : EvaluationStage → Bool
  | .waiting | .blacklist | .strategy => true
  | .execution | .finished => false

/-- Where `run_forever` stands: at the test of its loop, in a tick, asleep, or over. -/
inductive LoopPhase where
  | looping | ticking | sleeping (wakeAt : Timestamp) | ended
  deriving DecidableEq, Repr

structure LoopState (K : Type) where
  clock : Timestamp
  states : String → SymbolState
  stages : String → EvaluationStage := fun _ => .finished
  phase : LoopPhase := .looping
  stopped : Bool := false
  history : RunnerHistory K := []

namespace LoopState

variable {K : Type} (s : LoopState K)

def stop : LoopState K := { s with stopped := true }

def moveTo (symbol : String) (stage : EvaluationStage) : LoopState K :=
  { s with stages := Function.update s.stages symbol stage }

def happens (event : RunnerEvent K) : LoopState K :=
  { s with history := s.history ++ [(s.clock, event)] }

/-- An exception that a guard raised stops the runner. -/
def raised (e : PyError) : LoopState K := if e.isSafetyGuardError then s.stop else s

def recordEntry (symbol : String) : LoopState K :=
  { s with states := Function.update s.states symbol ((s.states symbol).recordEntry s.clock) }

/-- The row of today, or what the session raised. -/
def checkBlacklist (symbol : String) (row : Except PyError DailyStat) : LoopState K :=
  if s.stages symbol = .blacklist then
    match row with
    | .error _ => s.moveTo symbol .finished
    | .ok stat => s.moveTo symbol (if isSymbolBlacklisted stat symbol then .finished else .strategy)
  else s

/-- `execute_signal` returns or raises. -/
def executed (symbol : String) (outcome : Except PyError Unit) : LoopState K :=
  if s.stages symbol = .execution then
    match outcome with
    | .ok () => ((s.recordEntry symbol).happens (.recorded symbol)).moveTo symbol .finished
    | .error e => (s.raised e).moveTo symbol .finished
  else s

/-- The stop event is set, or the wait for it times out. -/
def wake : LoopState K :=
  match s.phase with
  | .sleeping wakeAt => if s.stopped ∨ wakeAt ≤ s.clock then { s with phase := .looping } else s
  | _ => s

end LoopState

/-- `wait_seconds` of `_sleep_until_next_candle_close`. -/
def waitSeconds (intervalMinutes : Int) (now : Timestamp) : Int :=
  let totalMinutes := now / 60000000 % 1440
  let elapsedInPeriod := totalMinutes % intervalMinutes
  let minutesToNext := intervalMinutes - elapsedInPeriod
  let waitSeconds := minutesToNext * 60 - now / 1000000 % 60 + 2
  if waitSeconds ≤ 0 then intervalMinutes * 60 else waitSeconds

namespace SignalLoopRunner

variable {K : Type} (runner : SignalLoopRunner K)

def initialState (clock : Timestamp) : LoopState K where
  clock := clock
  states := fun symbol => ⟨symbol, runner.cooldownSeconds, none⟩

def keys : List String := runner.symbols.dedup

def holders (s : LoopState K) : Nat :=
  runner.keys.countP fun symbol => (s.stages symbol).holdsSemaphore

/-- The test of the loop, and the tasks of `_tick`. -/
def loop (s : LoopState K) : LoopState K :=
  if s.phase ≠ .looping then s
  else if s.stopped then { s with phase := .ended }
  else
    { s.happens .began with
      phase := .ticking
      stages := fun symbol => if symbol ∈ runner.keys then .waiting else .finished }

/-- `async with semaphore`, and the cooldown of the symbol. -/
def enter (symbol : String) (s : LoopState K) : LoopState K :=
  if s.stages symbol = .waiting ∧ runner.holders s < runner.maxSymbolsConcurrent then
    if (s.states symbol).isInCooldown s.clock then s.moveTo symbol .finished
    else s.moveTo symbol (if runner.hasSessionFactory then .blacklist else .strategy)
  else s

/-- What `_evaluate_symbol` does with the result of the strategy, up to `execute_signal`. -/
def dispatch (symbol : String) (result : StrategyExecutionResult K) (s : LoopState K) :
    LoopState K :=
  match isSnapshotStale result.snapshot runner.maxStalenessIntervals runner.graceSeconds s.clock,
    result.signal with
  | .ok false, some signal =>
    match toExecuteSignalRequest signal with
    | .error _ => s.moveTo symbol .finished
    | .ok request => (s.moveTo symbol .execution).happens (.called symbol result.snapshot request)
  | _, _ => s.moveTo symbol .finished

/-- `strategy_service.run` returns or raises. -/
def evaluated (symbol : String)
    (getSnapshot : MarketSnapshotRequest → Except PyError (MarketSnapshot K)) (s : LoopState K) :
    LoopState K :=
  if s.stages symbol = .strategy then
    match StrategyExecutionRequest.run runner.strategy getSnapshot ⟨symbol, runner.interval⟩ with
    | .error e => (s.raised e).moveTo symbol .finished
    | .ok result => runner.dispatch symbol result s
  else s

/-- `gather` is over, and `_sleep_until_next_candle_close` begins. -/
def sleep (s : LoopState K) : LoopState K :=
  if s.phase = .ticking ∧ ∀ symbol ∈ runner.keys, s.stages symbol = .finished then
    match Intervals.intervalToMinutes runner.interval with
    | .error _ => { s with phase := .ended }
    | .ok minutes =>
      { s with phase := .sleeping (s.clock + secondsLength (waitSeconds minutes s.clock)) }
  else s

end SignalLoopRunner

/-- A step of one of the tasks, a stop from outside, or time that passes. -/
inductive LoopAction (K : Type) where
  | elapse (microseconds : Nat)
  | loop
  | enter (symbol : String)
  | checkBlacklist (symbol : String) (row : Except PyError DailyStat)
  | evaluated (symbol : String)
      (getSnapshot : MarketSnapshotRequest → Except PyError (MarketSnapshot K))
  | executed (symbol : String) (outcome : Except PyError Unit)
  | sleep
  | wake
  | stop

def SignalLoopRunner.step {K : Type} (runner : SignalLoopRunner K) (s : LoopState K) :
    LoopAction K → LoopState K
  | .elapse microseconds => { s with clock := s.clock + microseconds }
  | .loop => runner.loop s
  | .enter symbol => runner.enter symbol s
  | .checkBlacklist symbol row => s.checkBlacklist symbol row
  | .evaluated symbol getSnapshot => runner.evaluated symbol getSnapshot s
  | .executed symbol outcome => s.executed symbol outcome
  | .sleep => runner.sleep s
  | .wake => s.wake
  | .stop => s.stop

end AmaExecutionCore
